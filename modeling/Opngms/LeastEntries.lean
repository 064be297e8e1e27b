/-
Opngms/LeastEntries.lean

The least value of each key.

A dict that takes the value of a key it does not have, and otherwise only a smaller one,
ends with the least value of each key (**`mem_leastEntries`**).  Its sorted entries do not
depend on the order of the pairs, nor on how often each occurs (`sorted_congr`).
-/
import Mathlib.Data.List.Induction
import Mathlib.Data.Prod.Lex
import Mathlib.Order.Bounds.Basic
import Opngms.AssocLists
import Opngms.StableSort

/-! ### Assignment -/

section Assign

variable {κ ν : Type*} [DecidableEq κ]

/-- `d[k] = v`: a key that is there keeps its place. -/
def assign : List (κ × ν) → κ → ν → List (κ × ν)
  | [], k, v => [(k, v)]
  | (k', v') :: d, k, v => if k' = k then (k, v) :: d else (k', v') :: assign d k v

theorem lookup_assign (d : List (κ × ν)) (k k' : κ) (v : ν) :
    (assign d k v).lookup k' = if k' = k then some v else d.lookup k' := by
  induction d with
  | nil =>
    by_cases h : k' = k
    · simp [assign, h]
    · rw [assign, List.lookup_cons, beq_false_of_ne h, if_neg h]
  | cons kv d ih =>
    obtain ⟨k₀, v₀⟩ := kv
    by_cases h₀ : k₀ = k
    · subst h₀
      rw [assign, if_pos rfl, List.lookup_cons, List.lookup_cons]
      by_cases h : k' = k₀
      · simp [h]
      · rw [beq_false_of_ne h, if_neg h]
    · rw [assign, if_neg h₀, List.lookup_cons, List.lookup_cons, ih]
      by_cases h : k' = k₀
      · subst h
        simp [h₀]
      · rw [beq_false_of_ne h]

theorem keys_assign (d : List (κ × ν)) (k : κ) (v : ν) :
    (assign d k v).map (·.1) = if k ∈ d.map (·.1) then d.map (·.1) else d.map (·.1) ++ [k] := by
  induction d with
  | nil => rfl
  | cons kv d ih =>
    obtain ⟨k₀, v₀⟩ := kv
    by_cases h₀ : k₀ = k
    · simp [assign, h₀]
    · rw [assign, if_neg h₀, List.map_cons, ih, List.map_cons]
      have hmem : k ∈ k₀ :: d.map (·.1) ↔ k ∈ d.map (·.1) := by
        rw [List.mem_cons]
        exact or_iff_right (Ne.symm h₀)
      by_cases hk : k ∈ d.map (·.1)
      · rw [if_pos hk, if_pos (hmem.mpr hk)]
      · rw [if_neg hk, if_neg (mt hmem.mp hk), List.cons_append]

theorem nodup_assign {d : List (κ × ν)} (h : (d.map (·.1)).Nodup) (k : κ) (v : ν) :
    ((assign d k v).map (·.1)).Nodup := by
  rw [keys_assign]
  split
  · exact h
  · rename_i hk
    apply List.nodup_append.mpr
    refine ⟨h, List.nodup_singleton k, ?_⟩
    rintro a ha b hb rfl
    exact hk (List.mem_singleton.mp hb ▸ ha)

end Assign

/-! ### The least value -/

section Least

variable {κ τ : Type*} [DecidableEq κ] [LinearOrder τ]

/-- `if k not in d or v < d[k]: d[k] = v`. -/
def keepLeast (d : List (κ × τ)) (kv : κ × τ) : List (κ × τ) :=
  match d.lookup kv.1 with
  | none => assign d kv.1 kv.2
  | some v => if kv.2 < v then assign d kv.1 kv.2 else d

def leastEntries (pairs : List (κ × τ)) : List (κ × τ) := pairs.foldl keepLeast []

/-- The least element of a set, if it has one. -/
def LeastOf (s : Set τ) : Option τ → Prop
  | none => s = ∅
  | some t => IsLeast s t

/-- The least element of a set with one more. -/
def least (t : τ) : Option τ → τ
  | none => t
  | some t' => min t t'

theorem LeastOf.insert {s : Set τ} {o : Option τ} (h : LeastOf s o) (t : τ) :
    LeastOf (insert t s) (some (least t o)) := by
  cases o with
  | none =>
    have h : s = ∅ := h
    rw [h]
    refine ⟨Set.mem_insert t ∅, fun t' ht' => ?_⟩
    have heq : t' = t := by simpa using ht'
    exact heq.ge
  | some t' =>
    have h : IsLeast s t' := h
    exact h.insert t

theorem lookup_keepLeast (d : List (κ × τ)) (kv : κ × τ) (k : κ) :
    (keepLeast d kv).lookup k =
      if k = kv.1 then some (least kv.2 (d.lookup k)) else d.lookup k := by
  unfold keepLeast
  cases hd : d.lookup kv.1 with
  | none =>
    rw [lookup_assign]
    by_cases hk : k = kv.1
    · rw [if_pos hk, if_pos hk, hk, hd]
      rfl
    · rw [if_neg hk, if_neg hk]
  | some t =>
    show (if kv.2 < t then assign d kv.1 kv.2 else d).lookup k = _
    by_cases hlt : kv.2 < t
    · rw [if_pos hlt, lookup_assign]
      by_cases hk : k = kv.1
      · rw [if_pos hk, if_pos hk, hk, hd, least, min_eq_left hlt.le]
      · rw [if_neg hk, if_neg hk]
    · rw [if_neg hlt]
      by_cases hk : k = kv.1
      · rw [if_pos hk, hk, hd, least, min_eq_right (not_lt.mp hlt)]
      · rw [if_neg hk]

theorem nodup_keepLeast {d : List (κ × τ)} (h : (d.map (·.1)).Nodup) (kv : κ × τ) :
    ((keepLeast d kv).map (·.1)).Nodup := by
  unfold keepLeast
  split
  · exact nodup_assign h _ _
  · split
    · exact nodup_assign h _ _
    · exact h

theorem nodup_leastEntries (pairs : List (κ × τ)) :
    ((leastEntries pairs).map (·.1)).Nodup := by
  induction pairs using List.reverseRecOn with
  | nil => exact List.nodup_nil
  | append_singleton pairs kv ih =>
    rw [leastEntries, List.foldl_concat]
    exact nodup_keepLeast ih kv

theorem lookup_leastEntries (pairs : List (κ × τ)) (k : κ) :
    LeastOf {t | (k, t) ∈ pairs} ((leastEntries pairs).lookup k) := by
  induction pairs using List.reverseRecOn with
  | nil => exact Set.eq_empty_of_forall_notMem fun t ht => List.not_mem_nil ht
  | append_singleton pairs kv ih =>
    obtain ⟨k₀, t₀⟩ := kv
    rw [leastEntries, List.foldl_concat, lookup_keepLeast]
    by_cases hk : k = k₀
    · subst hk
      have hset : {t | (k, t) ∈ pairs ++ [(k, t₀)]} = insert t₀ {t | (k, t) ∈ pairs} := by
        ext t
        simp [or_comm]
      rw [if_pos rfl, hset]
      exact ih.insert t₀
    · have hset : {t | (k, t) ∈ pairs ++ [(k₀, t₀)]} = {t | (k, t) ∈ pairs} := by
        ext t
        simp [hk]
      rw [if_neg hk, hset]
      exact ih

/-- **The entries are the keys of the pairs, each with its least value.** -/
theorem mem_leastEntries (pairs : List (κ × τ)) (k : κ) (t : τ) :
    (k, t) ∈ leastEntries pairs ↔ IsLeast {t | (k, t) ∈ pairs} t := by
  rw [mem_iff_lookup (nodup_leastEntries pairs)]
  have hleast := lookup_leastEntries pairs k
  cases hlookup : (leastEntries pairs).lookup k with
  | none =>
    rw [hlookup] at hleast
    have hempty : {t | (k, t) ∈ pairs} = ∅ := hleast
    rw [hempty]
    exact iff_of_false nofun fun h => h.1
  | some t' =>
    rw [hlookup] at hleast
    have hleast : IsLeast {t | (k, t) ∈ pairs} t' := hleast
    rw [Option.some.injEq]
    constructor
    · rintro rfl
      exact hleast
    · intro h
      exact hleast.unique h

theorem mem_keys_leastEntries (pairs : List (κ × τ)) (k : κ) :
    k ∈ (leastEntries pairs).map (·.1) ↔ k ∈ pairs.map (·.1) := by
  have hleast := lookup_leastEntries pairs k
  cases hlookup : (leastEntries pairs).lookup k with
  | none =>
    rw [hlookup] at hleast
    have hempty : {t | (k, t) ∈ pairs} = ∅ := hleast
    have hnot : ∀ t, (k, t) ∉ leastEntries pairs := by
      intro t ht
      rw [mem_leastEntries, hempty] at ht
      exact ht.1
    have hnot' : ∀ t, (k, t) ∉ pairs := fun t ht => Set.notMem_empty t (hempty ▸ ht)
    simp [hnot, hnot']
  | some t =>
    have hmem := (mem_iff_lookup (nodup_leastEntries pairs)).mpr hlookup
    have hpairs := ((mem_leastEntries pairs k t).mp hmem).1
    exact iff_of_true (List.mem_map_of_mem hmem) (List.mem_map_of_mem hpairs)

end Least

/-! ### Sorted entries -/

section Sorted

variable {κ τ : Type} [LinearOrder κ] [LinearOrder τ]

/-- `sorted(d.items())`. -/
def sortedItems (d : List (κ × τ)) : List (κ × τ) := sortBy (fun kv => toLex kv) d

theorem sortedItems_ascending {d : List (κ × τ)} (h : (d.map (·.1)).Nodup) :
    (sortedItems d).Pairwise fun a b => a.1 < b.1 := by
  have hperm : (sortedItems d).Perm d := sortBy_perm d
  have hkeys : ((sortedItems d).map (·.1)).Nodup := (hperm.map _).nodup_iff.mpr h
  rw [List.Nodup, List.pairwise_map] at hkeys
  refine (hkeys.and (@sortBy_pairwise _ _ _ (fun kv => toLex kv) d)).imp ?_
  rintro a b ⟨hne, hle⟩
  rcases (Prod.Lex.toLex_le_toLex).mp hle with hlt | ⟨heq, -⟩
  · exact hlt
  · exact absurd heq hne

theorem sortedItems_congr {d d' : List (κ × τ)} (h : (d.map (·.1)).Nodup)
    (h' : (d'.map (·.1)).Nodup) (hmem : ∀ kv, kv ∈ d ↔ kv ∈ d') :
    sortedItems d = sortedItems d' := by
  apply (sortBy_eq_iff_perm (h.of_map.map toLex.injective)).mpr
  exact (List.perm_ext_iff_of_nodup h.of_map h'.of_map).mpr hmem

theorem sorted_congr {pairs pairs' : List (κ × τ)} (h : ∀ kv, kv ∈ pairs ↔ kv ∈ pairs') :
    sortedItems (leastEntries pairs) = sortedItems (leastEntries pairs') := by
  refine sortedItems_congr (nodup_leastEntries pairs) (nodup_leastEntries pairs') ?_
  rintro ⟨k, t⟩
  rw [mem_leastEntries, mem_leastEntries]
  simp only [h]

end Sorted
