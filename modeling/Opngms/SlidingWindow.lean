/-
Opngms/SlidingWindow.lean

`SlidingWindowLimiter` (core/ratelimit.py) over all histories of its calls.

The times are elements of an ordered ring, and the arithmetic is exact.  The deque of a key
is pruned in `check` only; the dictionary is in the order of the last touch, and its front is
evicted beyond `max_keys`.

As long as no more keys are used than are kept, nothing is evicted, and each key has a deque of
its own (`entry_run`).  What is pruned from it has left every later window, so a check counts
the failures in the window (`length_unexpired`); and because a failure is recorded only after an
allowed check, the deque is never longer than the limit, so a refused caller waits for one hit
only (**`sliding_window`**).
-/
import Mathlib.Algebra.Order.Floor.Ring
import Mathlib.Data.Finset.Card
import Mathlib.Data.List.Induction
import Mathlib.Data.List.TakeWhile
import Mathlib.Data.Rat.Floor
import Mathlib.Tactic.Linarith
import Opngms.AssocLists

namespace Opngms

namespace SlidingWindow

/-! ### The limiter -/

/-- `SlidingWindowLimiter`: the times of the failures under each key, the key that was touched
last at the end. -/
structure Limiter (α : Type) where
  hits : List (String × List α)
  maxKeys : Nat

/-- A call of the limiter, with the time it sees. -/
inductive Call (α : Type) where
  | check (key : String) (now : α)
  | recordFailure (key : String) (now : α)
  | reset (key : String)

def Call.key {α : Type} : Call α → String
  | .check key _ | .recordFailure key _ | .reset key => key

def Call.now? {α : Type} : Call α → Option α
  | .check _ now | .recordFailure _ now => some now
  | .reset _ => none

namespace Limiter

section Keys

variable {α : Type}

def entry (l : Limiter α) (key : String) : List α := (l.hits.lookup key).getD []

/-- `_touch`: the key is moved to the end, and the front is evicted. -/
def touch (l : Limiter α) (key : String) : Limiter α :=
  let hits := l.hits.filter (fun e => e.1 != key) ++ [(key, l.entry key)]
  { l with hits := hits.drop (hits.length - l.maxKeys) }

/-- Changes of the deque under a key; one that was evicted is not seen any more. -/
def store (l : Limiter α) (key : String) (times : List α) : Limiter α :=
  { l with hits := l.hits.map fun e => if e.1 = key then (key, times) else e }

/-- `record_failure`. -/
def recordFailure (l : Limiter α) (key : String) (now : α) : Limiter α :=
  (l.touch key).store key (l.entry key ++ [now])

/-- `reset`. -/
def reset (l : Limiter α) (key : String) : Limiter α :=
  { l with hits := l.hits.filter fun e => e.1 != key }

end Keys

end Limiter

section Clock

variable {α : Type} [CommRing α] [LinearOrder α]

/-- `while dq and dq[0] <= now - window: dq.popleft()`. -/
def unexpired (window : α) (times : List α) (now : α) : List α :=
  times.dropWhile fun t => t ≤ now - window

variable [FloorRing α]

/-- `int(x)`, towards zero. -/
def trunc (x : α) : Int := if 0 ≤ x then ⌊x⌋ else ⌈x⌉

/-- What `check` answers for a pruned deque: whether a call is allowed, and the seconds to wait;
an error for the first element of an empty deque. -/
def verdict (limit : Nat) (window : α) (times : List α) (now : α) : Except Unit (Bool × Int) :=
  if limit ≤ times.length then
    match times with
    | [] => .error ()
    | t :: _ => .ok (false, max (trunc (window - (now - t)) + 1) 1)
  else .ok (true, 0)

/-- `check`. -/
def Limiter.check (l : Limiter α) (key : String) (now : α) (limit : Nat) (window : α) :
    Except Unit (Bool × Int) × Limiter α :=
  let times := unexpired window (l.entry key) now
  (verdict limit window times now, (l.touch key).store key times)

def Limiter.after (limit : Nat) (window : α) (l : Limiter α) : Call α → Limiter α
  | .check key now => (l.check key now limit window).2
  | .recordFailure key now => l.recordFailure key now
  | .reset key => l.reset key

def run (limit : Nat) (window : α) (maxKeys : Nat) (calls : List (Call α)) : Limiter α :=
  calls.foldl (Limiter.after limit window) ⟨[], maxKeys⟩

/-- What a check answers after a history. -/
def answer (limit : Nat) (window : α) (maxKeys : Nat) (calls : List (Call α)) (key : String)
    (now : α) : Except Unit (Bool × Int) :=
  ((run limit window maxKeys calls).check key now limit window).1

end Clock

/-! ### What the calls are to mean -/

/-- The failures of a key after a call, a reset forgets them. -/
def failuresAfter {α : Type} (key : String) (fs : List α) : Call α → List α
  | .check _ _ => fs
  | .recordFailure k now => if k = key then fs ++ [now] else fs
  | .reset k => if k = key then [] else fs

def failures {α : Type} (key : String) (calls : List (Call α)) : List α :=
  calls.foldl (failuresAfter key) []

def Allowed (a : Except Unit (Bool × Int)) : Prop := ∃ r, a = .ok (true, r)

section Legal

variable {α : Type} [CommRing α] [LinearOrder α]

/-- The failures of a key in `(now - window, now]`. -/
def recent (window : α) (key : String) (calls : List (Call α)) (now : α) : Nat :=
  (failures key calls).countP fun t => now - window < t ∧ t ≤ now

variable [FloorRing α]

/-- The histories of the callers: time does not go back, fewer keys are used than are kept, and
a failure of a key is recorded directly after an allowed check of it. -/
structure Legal (limit : Nat) (window : α) (maxKeys : Nat) (calls : List (Call α)) : Prop where
  clock : (calls.filterMap Call.now?).Pairwise (· ≤ ·)
  few : (calls.map Call.key).toFinset.card < maxKeys
  recorded : ∀ before key now rest, calls = before ++ .recordFailure key now :: rest →
    ∃ earlier checked, before = earlier ++ [.check key checked] ∧
      Allowed (answer limit window maxKeys earlier key checked)

end Legal

/-! ### Nothing is evicted -/

section Room

variable {α : Type}

/-- The keys that are tracked are among those used, once each. -/
structure Tracked (used : Finset String) (l : Limiter α) : Prop where
  nodup : (l.hits.map (·.1)).Nodup
  used : ∀ e ∈ l.hits, e.1 ∈ used

/-- The dictionary after a key is touched and its deque is set, before the eviction. -/
def Limiter.moved (l : Limiter α) (key : String) (times : List α) : List (String × List α) :=
  l.hits.filter (fun e => e.1 != key) ++ [(key, times)]

theorem map_store_filter (hits : List (String × List α)) (key : String) (times : List α) :
    ((hits.filter fun e => e.1 != key).map fun e => if e.1 = key then (key, times) else e) =
      hits.filter fun e => e.1 != key := by
  rw [List.map_congr_left (g := id), List.map_id]
  intro e he
  have hne : e.1 ≠ key := by simpa using (List.mem_filter.mp he).2
  exact if_neg hne

variable {used : Finset String} {l : Limiter α}

theorem Tracked.nodup_moved (h : Tracked used l) (key : String) (times : List α) :
    ((l.moved key times).map (·.1)).Nodup := by
  rw [Limiter.moved, List.map_append, List.nodup_append]
  refine ⟨?_, List.nodup_singleton _, ?_⟩
  · exact h.nodup.sublist (List.filter_sublist.map _)
  · intro k hk k' hk'
    obtain ⟨e, he, rfl⟩ := List.mem_map.mp hk
    obtain rfl := List.mem_singleton.mp hk'
    simpa using (List.mem_filter.mp he).2

theorem Tracked.mem_moved (h : Tracked used l) {key : String} (hkey : key ∈ used)
    (times : List α) : ∀ e ∈ l.moved key times, e.1 ∈ used := by
  intro e he
  rcases List.mem_append.mp he with he | he
  · exact h.used e (List.mem_of_mem_filter he)
  · obtain rfl := List.mem_singleton.mp he
    exact hkey

theorem Tracked.touch_store_hits (h : Tracked used l) {key : String} (hkey : key ∈ used)
    (hroom : used.card ≤ l.maxKeys) (times : List α) :
    ((l.touch key).store key times).hits = l.moved key times := by
  have hlength : (l.moved key (l.entry key)).length ≤ l.maxKeys := by
    have hcard : (l.moved key (l.entry key)).length ≤ used.card := by
      rw [← List.length_map (f := (·.1)),
        ← List.toFinset_card_of_nodup (h.nodup_moved key (l.entry key))]
      apply Finset.card_le_card
      intro k hk
      obtain ⟨e, he, rfl⟩ := List.mem_map.mp (List.mem_toFinset.mp hk)
      exact h.mem_moved hkey _ e he
    exact hcard.trans hroom
  have htouch : (l.touch key).hits = l.moved key (l.entry key) := by
    show List.drop ((l.moved key (l.entry key)).length - l.maxKeys)
      (l.moved key (l.entry key)) = _
    rw [Nat.sub_eq_zero_of_le hlength, List.drop_zero]
  show (l.touch key).hits.map _ = _
  rw [htouch, Limiter.moved, List.map_append, map_store_filter]
  simp [Limiter.moved]

theorem lookup_filter_self (hits : List (String × List α)) (key : String) :
    (hits.filter fun e => e.1 != key).lookup key = none := by
  rw [List.lookup_eq_none_iff]
  intro e he
  have hne : e.1 ≠ key := by simpa using (List.mem_filter.mp he).2
  simpa using hne.symm

theorem Tracked.entry_touch_store (h : Tracked used l) {key : String} (hkey : key ∈ used)
    (hroom : used.card ≤ l.maxKeys) (times : List α) (key' : String) :
    ((l.touch key).store key times).entry key' = if key = key' then times else l.entry key' := by
  unfold Limiter.entry
  rw [h.touch_store_hits hkey hroom, Limiter.moved, List.lookup_append]
  by_cases heq : key = key'
  · subst heq
    rw [if_pos rfl, lookup_filter_self]
    simp
  · rw [if_neg heq, lookup_filter_ne _ (Ne.symm heq)]
    have hfalse : (key' == key) = false := by simpa using Ne.symm heq
    simp [List.lookup_cons, hfalse]

theorem Tracked.touch_store (h : Tracked used l) {key : String} (hkey : key ∈ used)
    (hroom : used.card ≤ l.maxKeys) (times : List α) :
    Tracked used ((l.touch key).store key times) where
  nodup := by
    rw [h.touch_store_hits hkey hroom]
    exact h.nodup_moved key times
  used := by
    rw [h.touch_store_hits hkey hroom]
    exact h.mem_moved hkey times

theorem entry_reset (l : Limiter α) (key key' : String) :
    (l.reset key).entry key' = if key = key' then [] else l.entry key' := by
  unfold Limiter.entry Limiter.reset
  by_cases heq : key = key'
  · subst heq
    rw [if_pos rfl, lookup_filter_self]
    rfl
  · rw [if_neg heq, lookup_filter_ne _ (Ne.symm heq)]

theorem Tracked.reset (h : Tracked used l) (key : String) : Tracked used (l.reset key) where
  nodup := h.nodup.sublist (List.filter_sublist.map _)
  used := fun e he => h.used e (List.mem_of_mem_filter he)

end Room

/-! ### The deque of a key -/

section Deques

variable {α : Type} [CommRing α] [LinearOrder α]

def dequeAfter (window : α) (key : String) (times : List α) : Call α → List α
  | .check k now => if k = key then unexpired window times now else times
  | .recordFailure k now => if k = key then times ++ [now] else times
  | .reset k => if k = key then [] else times

def deque (window : α) (key : String) (calls : List (Call α)) : List α :=
  calls.foldl (dequeAfter window key) []

@[simp] theorem deque_concat (window : α) (key : String) (calls : List (Call α)) (c : Call α) :
    deque window key (calls ++ [c]) = dequeAfter window key (deque window key calls) c := by
  simp [deque]

theorem dequeAfter_ne {window : α} {key : String} {c : Call α} (h : c.key ≠ key)
    (times : List α) : dequeAfter window key times c = times := by
  cases c <;> exact if_neg h

theorem deque_filter (window : α) (key : String) (calls : List (Call α)) :
    deque window key (calls.filter fun c => c.key = key) = deque window key calls := by
  induction calls using List.reverseRecOn with
  | nil => rfl
  | append_singleton calls c ih =>
    rw [deque_concat, List.filter_append]
    by_cases hkey : c.key = key
    · have hone : [c].filter (fun c => c.key = key) = [c] := by simp [hkey]
      rw [hone, deque_concat, ih]
    · have hnone : [c].filter (fun c => c.key = key) = [] := by simp [hkey]
      rw [hnone, List.append_nil, ih, dequeAfter_ne hkey]

theorem deque_suffix (window : α) (calls : List (Call α)) (key : String)
    {between : List (Call α)}
    (hnone : ∀ now, Call.recordFailure key now ∉ between) :
    deque window key (calls ++ between) <:+ deque window key calls := by
  induction between using List.reverseRecOn with
  | nil =>
    rw [List.append_nil]
  | append_singleton between c ih =>
    have ih := ih fun now hmem => hnone now (List.mem_append_left _ hmem)
    rw [← List.append_assoc, deque_concat]
    cases c with
    | check k now =>
      simp only [dequeAfter]
      split
      · exact (List.dropWhile_suffix _).trans ih
      · exact ih
    | recordFailure k now =>
      simp only [dequeAfter]
      split
      · rename_i hkey
        exact absurd (List.mem_append_right _ (hkey ▸ List.mem_singleton_self _)) (hnone now)
      · exact ih
    | reset k =>
      simp only [dequeAfter]
      split
      · exact List.nil_suffix
      · exact ih

variable [FloorRing α] {limit : Nat} {window : α} {maxKeys : Nat}

theorem run_concat (calls : List (Call α)) (c : Call α) :
    run limit window maxKeys (calls ++ [c]) =
      (run limit window maxKeys calls).after limit window c := by
  simp [run]

@[simp] theorem maxKeys_after (l : Limiter α) (c : Call α) :
    (l.after limit window c).maxKeys = l.maxKeys := by
  cases c <;> rfl

@[simp] theorem maxKeys_run (calls : List (Call α)) :
    (run limit window maxKeys calls).maxKeys = maxKeys := by
  induction calls using List.reverseRecOn with
  | nil => rfl
  | append_singleton calls c ih => rw [run_concat, maxKeys_after, ih]

theorem Tracked.after (limit : Nat) (window : α) {used : Finset String} {l : Limiter α}
    (h : Tracked used l) (hroom : used.card ≤ l.maxKeys) {c : Call α} (hkey : c.key ∈ used) :
    Tracked used (l.after limit window c) ∧
      ∀ key, (l.after limit window c).entry key = dequeAfter window key (l.entry key) c := by
  cases c with
  | check k now =>
    refine ⟨h.touch_store hkey hroom _, fun key => ?_⟩
    refine (h.entry_touch_store hkey hroom _ key).trans ?_
    show (if k = key then _ else _) = if k = key then _ else _
    by_cases heq : k = key
    · rw [if_pos heq, if_pos heq, heq]
    · rw [if_neg heq, if_neg heq]
  | recordFailure k now =>
    refine ⟨h.touch_store hkey hroom _, fun key => ?_⟩
    refine (h.entry_touch_store hkey hroom _ key).trans ?_
    show (if k = key then _ else _) = if k = key then _ else _
    by_cases heq : k = key
    · rw [if_pos heq, if_pos heq, heq]
    · rw [if_neg heq, if_neg heq]
  | reset k => exact ⟨h.reset k, fun key => entry_reset l k key⟩

theorem entry_run {calls : List (Call α)} (hfew : (calls.map Call.key).toFinset.card ≤ maxKeys)
    (key : String) :
    (run limit window maxKeys calls).entry key = deque window key calls := by
  have hall : ∀ used : Finset String, used.card ≤ maxKeys → (∀ c ∈ calls, c.key ∈ used) →
      Tracked used (run limit window maxKeys calls) ∧
        ∀ key, (run limit window maxKeys calls).entry key = deque window key calls := by
    intro used hroom hkeys
    clear hfew
    induction calls using List.reverseRecOn with
    | nil => exact ⟨⟨List.nodup_nil, nofun⟩, fun _ => rfl⟩
    | append_singleton calls c ih =>
      obtain ⟨htracked, hentry⟩ := ih fun c hc => hkeys c (List.mem_append_left _ hc)
      obtain ⟨htracked', hentry'⟩ := htracked.after limit window
        (by rwa [maxKeys_run]) (hkeys c (List.mem_append_right _ (List.mem_singleton_self c)))
      rw [run_concat]
      refine ⟨htracked', fun key => ?_⟩
      rw [hentry', hentry, deque_concat]
  refine (hall _ hfew fun c hc => ?_).2 key
  exact List.mem_toFinset.mpr (List.mem_map_of_mem hc)

theorem answer_eq {calls : List (Call α)} (hfew : (calls.map Call.key).toFinset.card ≤ maxKeys)
    (key : String) (now : α) :
    answer limit window maxKeys calls key now =
      verdict limit window (unexpired window (deque window key calls) now) now := by
  unfold answer Limiter.check
  rw [entry_run hfew]

theorem length_run (calls : List (Call α)) :
    (run limit window maxKeys calls).hits.length ≤ maxKeys := by
  induction calls using List.reverseRecOn with
  | nil => exact Nat.zero_le _
  | append_singleton calls c ih =>
    have htouch : ∀ (l : Limiter α) (key : String) (times : List α),
        ((l.touch key).store key times).hits.length ≤ l.maxKeys := by
      intro l key times
      simp only [Limiter.touch, Limiter.store, List.length_map, List.length_drop]
      omega
    rw [run_concat]
    cases c with
    | check key now => exact (htouch _ key _).trans_eq (maxKeys_run calls)
    | recordFailure key now => exact (htouch _ key _).trans_eq (maxKeys_run calls)
    | reset key => exact (List.length_filter_le _ _).trans ih

end Deques

/-! ### The failures in the window -/

section Window

variable {α : Type} {key : String}

theorem length_dropWhile_le [LinearOrder α] {times : List α} (h : times.Pairwise (· ≤ ·)) (a : α) :
    (times.dropWhile fun t => t ≤ a).length = times.countP fun t => a < t := by
  induction times with
  | nil => rfl
  | cons t times ih =>
    obtain ⟨hhead, htail⟩ := List.pairwise_cons.mp h
    by_cases ht : t ≤ a
    · rw [List.dropWhile_cons_of_pos (by simpa using ht),
        List.countP_cons_of_neg (p := fun t => decide (a < t)) (by simpa using ht)]
      exact ih htail
    · rw [List.dropWhile_cons_of_neg (by simpa using ht)]
      refine (List.countP_eq_length.mpr fun t' ht' => ?_).symm
      rw [decide_eq_true_eq]
      rcases List.mem_cons.mp ht' with rfl | ht'
      · exact not_le.mp ht
      · exact (not_le.mp ht).trans_le (hhead t' ht')

@[simp] theorem failures_concat (calls : List (Call α)) (c : Call α) :
    failures key (calls ++ [c]) = failuresAfter key (failures key calls) c := by
  simp [failures]

def times (calls : List (Call α)) : List α := calls.filterMap Call.now?

theorem times_concat (calls : List (Call α)) (c : Call α) :
    times (calls ++ [c]) = times calls ++ c.now?.toList := by
  rw [times, List.filterMap_append]
  cases c <;> rfl

theorem failures_sublist (calls : List (Call α)) : (failures key calls).Sublist (times calls) := by
  induction calls using List.reverseRecOn with
  | nil => exact List.Sublist.slnil
  | append_singleton calls c ih =>
    rw [failures_concat, times_concat]
    cases c with
    | check k now => exact ih.trans (List.sublist_append_left _ _)
    | recordFailure k now =>
      simp only [failuresAfter]
      split
      · exact ih.append (List.Sublist.refl _)
      · exact ih.trans (List.sublist_append_left _ _)
    | reset k =>
      simp only [failuresAfter]
      split
      · exact List.nil_sublist _
      · exact ih.trans (List.sublist_append_left _ _)

variable [CommRing α] [LinearOrder α] [IsStrictOrderedRing α] {window : α}

/-- What was dropped from a deque has left the window for good. -/
theorem exists_dropped (window : α) (key : String) {calls : List (Call α)}
    (hclock : (times calls).Pairwise (· ≤ ·)) :
    ∃ dropped, failures key calls = dropped ++ deque window key calls ∧
      ∀ now, (∀ t ∈ times calls, t ≤ now) → ∀ d ∈ dropped, d ≤ now - window := by
  induction calls using List.reverseRecOn with
  | nil => exact ⟨[], rfl, nofun⟩
  | append_singleton calls c ih =>
    rw [times_concat] at hclock
    obtain ⟨hbefore, -, hlast⟩ := List.pairwise_append.mp hclock
    obtain ⟨dropped, heq, hout⟩ := ih hbefore
    have hout' : ∀ now, (∀ t ∈ times (calls ++ [c]), t ≤ now) → ∀ d ∈ dropped, d ≤ now - window := by
      intro now hnow
      rw [times_concat] at hnow
      exact hout now fun t ht => hnow t (List.mem_append_left _ ht)
    rw [failures_concat, deque_concat]
    by_cases hkey : c.key = key
    · cases c with
      | check k checked =>
        obtain rfl : k = key := hkey
        refine ⟨dropped ++ (deque window k calls).takeWhile fun t => t ≤ checked - window, ?_, ?_⟩
        · simp only [failuresAfter, dequeAfter, if_true, unexpired, List.append_assoc,
            List.takeWhile_append_dropWhile]
          exact heq
        · intro now hnow d hd
          rcases List.mem_append.mp hd with hd | hd
          · exact hout' now hnow d hd
          · have hexpired : d ≤ checked - window := by
              simpa using List.mem_takeWhile_imp hd
            have hle : checked ≤ now := by
              apply hnow
              rw [times_concat]
              exact List.mem_append_right _ (List.mem_singleton_self _)
            exact hexpired.trans (sub_le_sub_right hle window)
      | recordFailure k now =>
        obtain rfl : k = key := hkey
        refine ⟨dropped, ?_, hout'⟩
        simp only [failuresAfter, dequeAfter, if_true, heq, List.append_assoc]
      | reset k =>
        obtain rfl : k = key := hkey
        refine ⟨[], ?_, nofun⟩
        simp only [failuresAfter, dequeAfter, if_true, List.append_nil]
    · refine ⟨dropped, ?_, hout'⟩
      rw [dequeAfter_ne hkey]
      cases c with
      | check k checked => exact heq
      | recordFailure k now => exact (if_neg hkey).trans heq
      | reset k => exact (if_neg hkey).trans heq

theorem length_unexpired {calls : List (Call α)} (hclock : (times calls).Pairwise (· ≤ ·)) {now : α}
    (hnow : ∀ t ∈ times calls, t ≤ now) :
    (unexpired window (deque window key calls) now).length = recent window key calls now := by
  obtain ⟨dropped, heq, hout⟩ := exists_dropped window key hclock
  have hsorted : (failures key calls).Pairwise (· ≤ ·) := hclock.sublist (failures_sublist calls)
  have hle : ∀ t ∈ failures key calls, t ≤ now := fun t ht =>
    hnow t ((failures_sublist calls).subset ht)
  unfold recent unexpired
  rw [heq] at hsorted hle ⊢
  have hdropped : dropped.countP (fun t => now - window < t ∧ t ≤ now) = 0 := by
    rw [List.countP_eq_zero]
    intro d hd
    simpa using fun h => absurd h (not_lt.mpr (hout now hnow d hd))
  rw [length_dropWhile_le (List.pairwise_append.mp hsorted).2.1, List.countP_append, hdropped,
    Nat.zero_add]
  apply List.countP_congr
  intro t ht
  simp [hle t (List.mem_append_right _ ht)]

end Window

/-! ### The limit -/

section Limit

theorem card_keys_append {α : Type} (before rest : List (Call α)) :
    (before.map Call.key).toFinset.card ≤ ((before ++ rest).map Call.key).toFinset.card := by
  apply Finset.card_le_card
  intro k hk
  rw [List.mem_toFinset] at hk ⊢
  rw [List.map_append]
  exact List.mem_append_left _ hk

variable {α : Type} [CommRing α] [LinearOrder α] [FloorRing α] {limit : Nat} {window : α}

theorem verdict_allowed (times : List α) (now : α) :
    Allowed (verdict limit window times now) ↔ times.length < limit := by
  unfold verdict
  constructor
  · rintro ⟨r, hr⟩
    by_contra hfull
    rw [if_pos (not_lt.mp hfull)] at hr
    cases times with
    | nil => cases hr
    | cons t times => cases hr
  · intro hroom
    exact ⟨0, if_neg (not_le.mpr hroom)⟩

theorem verdict_refused {times : List α} {now : α} {r : Int}
    (h : verdict limit window times now = .ok (false, r)) :
    ∃ first rest, times = first :: rest ∧ limit ≤ times.length ∧
      r = max (trunc (window - (now - first)) + 1) 1 := by
  unfold verdict at h
  by_cases hfull : limit ≤ times.length
  · rw [if_pos hfull] at h
    cases times with
    | nil => cases h
    | cons first rest =>
      have hr : (false, max (trunc (window - (now - first)) + 1) 1) = (false, r) := Except.ok.inj h
      exact ⟨first, rest, rfl, hfull, (Prod.mk.inj hr).2.symm⟩
  · rw [if_neg hfull] at h
    cases h

theorem verdict_answers (hlimit : 1 ≤ limit) (times : List α) (now : α) :
    ∃ a, verdict limit window times now = .ok a := by
  unfold verdict
  by_cases hfull : limit ≤ times.length
  · rw [if_pos hfull]
    cases times with
    | nil => exact absurd (hlimit.trans hfull) (Nat.not_succ_le_zero 0)
    | cons first rest => exact ⟨_, rfl⟩
  · exact ⟨_, if_neg hfull⟩

variable {maxKeys : Nat} {calls : List (Call α)}

theorem Legal.before {before rest : List (Call α)}
    (h : Legal limit window maxKeys (before ++ rest)) : Legal limit window maxKeys before where
  clock := by
    have hclock := h.clock
    rw [List.filterMap_append] at hclock
    exact (List.pairwise_append.mp hclock).1
  few := (card_keys_append before rest).trans_lt h.few
  recorded := fun earlier key now later heq =>
    h.recorded earlier key now (later ++ rest) (by rw [heq, List.append_assoc, List.cons_append])

theorem Legal.answer_eq (h : Legal limit window maxKeys calls) (key : String) (now : α) :
    answer limit window maxKeys calls key now =
      verdict limit window (unexpired window (deque window key calls) now) now :=
  SlidingWindow.answer_eq h.few.le key now

/-- Since a failure is recorded after an allowed check, a deque is within the limit. -/
theorem Legal.length_deque (h : Legal limit window maxKeys calls) (key : String) :
    (deque window key calls).length ≤ limit := by
  induction calls using List.reverseRecOn with
  | nil => exact Nat.zero_le _
  | append_singleton calls c ih =>
    rw [deque_concat]
    cases c with
    | check k now =>
      simp only [dequeAfter]
      split
      · exact (List.dropWhile_sublist _).length_le.trans (ih h.before)
      · exact ih h.before
    | recordFailure k now =>
      simp only [dequeAfter]
      split
      · rename_i hkey
        subst hkey
        obtain ⟨earlier, checked, rfl, hallowed⟩ := h.recorded calls k now [] rfl
        rw [h.before.before.answer_eq, verdict_allowed] at hallowed
        simpa [dequeAfter, Nat.succ_le_iff] using hallowed
      · exact ih h.before
    | reset k =>
      simp only [dequeAfter]
      split
      · exact Nat.zero_le _
      · exact ih h.before

variable [IsStrictOrderedRing α]

theorem lt_trunc_add_one {x : α} (hx : 0 < x) : x < ((max (trunc x + 1) 1 : Int) : α) := by
  have hfloor : trunc x = ⌊x⌋ := if_pos hx.le
  have hle : ((⌊x⌋ + 1 : Int) : α) ≤ ((max (trunc x + 1) 1 : Int) : α) := by
    rw [hfloor]
    exact Int.cast_le.mpr (le_max_left _ _)
  refine lt_of_lt_of_le ?_ hle
  push_cast
  exact Int.lt_floor_add_one x

theorem first_expired {times rest : List α} {first now : α} {r : Int}
    (htimes : unexpired window times now = first :: rest)
    (hr : r = max (trunc (window - (now - first)) + 1) 1) : first ≤ now + r - window := by
  have hin : ¬ first ≤ now - window := by
    have hhead := List.head?_dropWhile_not (fun t => decide (t ≤ now - window)) times
    rw [unexpired] at htimes
    rw [htimes] at hhead
    simpa using hhead
  have hpos : 0 < window - (now - first) := by linarith [not_le.mp hin]
  have hwait := lt_trunc_add_one hpos
  rw [← hr] at hwait
  linarith

theorem Legal.allowed_after {key : String} {now : α} {r : Int} {between : List (Call α)}
    (h : Legal limit window maxKeys (calls ++ .check key now :: between))
    (hrefused : answer limit window maxKeys calls key now = .ok (false, r))
    (hnone : ∀ t, Call.recordFailure key t ∉ between) :
    Allowed (answer limit window maxKeys (calls ++ .check key now :: between) key (now + r)) := by
  have hcons : calls ++ .check key now :: between = calls ++ [.check key now] ++ between := by
    rw [List.append_assoc, List.singleton_append]
  have hbefore : Legal limit window maxKeys (calls ++ [.check key now]) := (hcons ▸ h).before
  rw [hbefore.before.answer_eq] at hrefused
  obtain ⟨first, rest, htimes, hfull, hr⟩ := verdict_refused hrefused
  have hlength := hbefore.length_deque key
  have hpruned : deque window key (calls ++ [.check key now]) = first :: rest := by
    rw [deque_concat, ← htimes]
    exact if_pos rfl
  rw [hpruned, List.length_cons] at hlength
  have hsuffix := deque_suffix window (calls ++ [.check key now]) key hnone
  rw [List.append_assoc, List.singleton_append, hpruned] at hsuffix
  rw [h.answer_eq, verdict_allowed]
  rcases List.suffix_cons_iff.mp hsuffix with hall | hfewer
  · -- nothing has left yet: the first hit does now
    rw [hall, unexpired, List.dropWhile_cons_of_pos
      (by simpa using first_expired htimes hr)]
    exact (Nat.lt_of_le_of_lt (List.dropWhile_sublist _).length_le (Nat.lt_succ_self _)).trans_le
      hlength
  · have hle := (List.dropWhile_sublist (fun t => decide (t ≤ now + r - window))).length_le.trans
      hfewer.length_le
    exact (Nat.lt_succ_of_le hle).trans_le hlength

/-- **The sliding window.**  In every legal history, a check answers, and is allowed exactly if
fewer failures of its key since the last reset are in the window than the limit; the calls of
other keys do not change its answer; never more keys are tracked than `maxKeys`; and after a
refusal, with no new failure, a check at the end of the wait is allowed. -/
theorem sliding_window (hlimit : 1 ≤ limit) (h : Legal limit window maxKeys calls) :
    (∀ before key now rest, calls = before ++ .check key now :: rest →
      (∃ a, answer limit window maxKeys before key now = .ok a) ∧
      (Allowed (answer limit window maxKeys before key now) ↔
        recent window key before now < limit) ∧
      answer limit window maxKeys before key now =
        answer limit window maxKeys (before.filter fun c => c.key = key) key now) ∧
    (∀ before rest, calls = before ++ rest →
      (run limit window maxKeys before).hits.length ≤ maxKeys) ∧
    (∀ before key now between r rest,
      calls = before ++ .check key now :: between ++ .check key (now + r) :: rest →
      answer limit window maxKeys before key now = .ok (false, r) →
      (∀ t, Call.recordFailure key t ∉ between) →
      Allowed (answer limit window maxKeys (before ++ .check key now :: between) key
        (now + (r : Int)))) := by
  refine ⟨?_, fun before rest _ => length_run before, ?_⟩
  · rintro before key now rest rfl
    have hbefore := h.before
    rw [hbefore.answer_eq]
    refine ⟨verdict_answers hlimit _ _, ?_, ?_⟩
    · have hclock := h.clock
      rw [List.filterMap_append] at hclock
      obtain ⟨hsorted, -, hlast⟩ := List.pairwise_append.mp hclock
      rw [verdict_allowed, length_unexpired hsorted fun t ht => hlast t ht now List.mem_cons_self]
    · have hfew : ((before.filter fun c => c.key = key).map Call.key).toFinset.card ≤ maxKeys := by
        refine le_trans (Finset.card_le_card fun k hk => ?_) hbefore.few.le
        rw [List.mem_toFinset] at hk ⊢
        exact (List.filter_sublist.map _).subset hk
      rw [SlidingWindow.answer_eq hfew, deque_filter]
  · rintro before key now between r rest rfl hrefused hnone
    exact h.before.allowed_after hrefused hnone

end Limit

def sampleCalls : List (Call ℚ) := [.check "a" 0, .recordFailure "a" 0]

/-- One failure a minute: a check after half a minute waits 31 seconds. -/
theorem sliding_window_minute :
    answer 1 (60 : ℚ) 2 sampleCalls "a" 30 = .ok (false, 31) ∧
    Allowed (answer 1 (60 : ℚ) 2 (sampleCalls ++ [.check "a" 30]) "a" (30 + (31 : Int))) := by
  have hrefused : answer 1 (60 : ℚ) 2 sampleCalls "a" 30 = .ok (false, 31) := by decide +kernel
  have hlegal : Legal 1 (60 : ℚ) 2
      (sampleCalls ++ [.check "a" 30, .check "a" (30 + (31 : Int))]) := by
    refine ⟨by decide +kernel, by decide +kernel, ?_⟩
    intro before key now rest heq
    -- the failure is the second call
    rcases before with _ | ⟨c₁, _ | ⟨c₂, _ | ⟨c₃, _ | ⟨c₄, before⟩⟩⟩⟩ <;>
      simp [sampleCalls] at heq
    obtain ⟨rfl, ⟨rfl, rfl⟩, -⟩ := heq
    exact ⟨[], 0, rfl, 0, by decide +kernel⟩
  exact ⟨hrefused,
    (sliding_window le_rfl hlegal).2.2 sampleCalls "a" 30 [] 31 [] rfl hrefused nofun⟩

end SlidingWindow

end Opngms
