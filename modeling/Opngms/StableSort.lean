/-
Opngms/StableSort.lean

Lists up to the order of entries with different keys.

Sorting by a key is stable: the entries of one key keep their order
(`filter_sortBy`).  So the sorted list forgets exactly the relative order of
entries with different keys: **`sortBy_eq_iff`**.
-/
import Mathlib.Data.List.Sort
import Mathlib.Order.Basic

variable {α κ : Type} [LinearOrder κ] {key : α → κ}

/-- Insert before the first entry whose key is not smaller. -/
def insertBy (key : α → κ) (a : α) (l : List α) : List α :=
  l.orderedInsert (fun a b => key a ≤ key b) a

def sortBy (key : α → κ) (l : List α) : List α := l.foldr (insertBy key) []

theorem insertBy_cons (a b : α) (l : List α) :
    insertBy key a (b :: l) = if key a ≤ key b then a :: b :: l else b :: insertBy key a l :=
  List.orderedInsert_cons ..

theorem sortBy_perm (l : List α) : (sortBy key l).Perm l :=
  List.perm_insertionSort (fun a b => key a ≤ key b) l

theorem sortBy_pairwise (l : List α) : (sortBy key l).Pairwise fun a b => key a ≤ key b := by
  have : Std.Total fun a b => key a ≤ key b := ⟨fun a b => le_total (key a) (key b)⟩
  have : IsTrans α fun a b => key a ≤ key b := ⟨fun _ _ _ => le_trans⟩
  exact List.pairwise_insertionSort (fun a b => key a ≤ key b) l

theorem sortBy_of_pairwise {l : List α} (h : l.Pairwise fun a b => key a ≤ key b) :
    sortBy key l = l :=
  List.Pairwise.insertionSort_eq h

theorem filter_insertBy (k : κ) (a : α) (l : List α) :
    (insertBy key a l).filter (fun x => key x = k) = (a :: l).filter fun x => key x = k := by
  induction l with
  | nil => rfl
  | cons b l ih =>
    rw [insertBy_cons]
    split
    · rfl
    · rename_i hab
      -- where both keys are `k`, the entry would have gone before `b`
      have hne : key b = k → key a ≠ k := by
        intro hb ha
        exact hab (ha.trans hb.symm).le
      by_cases hb : key b = k
      · rw [List.filter_cons_of_pos (by simpa using hb), ih,
          List.filter_cons_of_neg (by simpa using hne hb),
          List.filter_cons_of_neg (by simpa using hne hb),
          List.filter_cons_of_pos (by simpa using hb)]
      · rw [List.filter_cons_of_neg (by simpa using hb), ih, List.filter_cons, List.filter_cons,
          List.filter_cons_of_neg (by simpa using hb)]

theorem filter_sortBy (k : κ) (l : List α) :
    (sortBy key l).filter (fun x => key x = k) = l.filter fun x => key x = k := by
  induction l with
  | nil => rfl
  | cons a l ih =>
    show (insertBy key a (sortBy key l)).filter _ = _
    rw [filter_insertBy, List.filter_cons, List.filter_cons, ih]

/-- A sorted list is determined by its entries of each key. -/
theorem eq_of_filter_eq {l l' : List α} (hl : l.Pairwise fun a b => key a ≤ key b)
    (hl' : l'.Pairwise fun a b => key a ≤ key b)
    (h : ∀ k, l.filter (fun x => key x = k) = l'.filter fun x => key x = k) : l = l' := by
  induction l generalizing l' with
  | nil =>
    cases l' with
    | nil => rfl
    | cons b l' =>
      have hb := h (key b)
      rw [List.filter_cons_of_pos (by simp)] at hb
      cases hb
  | cons a l ih =>
    cases l' with
    | nil =>
      have ha := h (key a)
      rw [List.filter_cons_of_pos (by simp)] at ha
      cases ha
    | cons b l' =>
      obtain ⟨ha, hl⟩ := List.pairwise_cons.mp hl
      obtain ⟨hb, hrest⟩ := List.pairwise_cons.mp hl'
      have hmem : a ∈ b :: l' := by
        have ha : a ∈ (b :: l').filter fun x => key x = key a := by
          rw [← h, List.filter_cons_of_pos (by simp)]
          exact List.mem_cons_self
        exact List.mem_of_mem_filter ha
      have hmem' : b ∈ a :: l := by
        have hb : b ∈ (a :: l).filter fun x => key x = key b := by
          rw [h, List.filter_cons_of_pos (by simp)]
          exact List.mem_cons_self
        exact List.mem_of_mem_filter hb
      have hle : key b ≤ key a := by
        rcases List.mem_cons.mp hmem with rfl | hm
        · exact le_rfl
        · exact hb a hm
      have hge : key a ≤ key b := by
        rcases List.mem_cons.mp hmem' with rfl | hm
        · exact le_rfl
        · exact ha b hm
      have hkey : key b = key a := le_antisymm hle hge
      have hhead := h (key a)
      rw [List.filter_cons_of_pos (by simp), List.filter_cons_of_pos (by simp [hkey])] at hhead
      obtain ⟨rfl, -⟩ := List.cons.inj hhead
      refine congrArg (a :: ·) (ih hl hrest fun k => ?_)
      have hk := h k
      by_cases hak : key a = k
      · rw [List.filter_cons_of_pos (by simpa using hak),
          List.filter_cons_of_pos (by simpa using hak)] at hk
        exact (List.cons.inj hk).2
      · rwa [List.filter_cons_of_neg (by simpa using hak),
          List.filter_cons_of_neg (by simpa using hak)] at hk

/-- **Sorting forgets the relative order of entries with different keys, and no more.** -/
theorem sortBy_eq_iff {l l' : List α} :
    sortBy key l = sortBy key l' ↔
      ∀ k, l.filter (fun x => key x = k) = l'.filter fun x => key x = k := by
  constructor
  · intro h k
    rw [← filter_sortBy, h, filter_sortBy]
  · intro h
    refine eq_of_filter_eq (sortBy_pairwise l) (sortBy_pairwise l') fun k => ?_
    rw [filter_sortBy, filter_sortBy, h]

theorem sortBy_eq_iff_perm {l l' : List α} (hl : (l.map key).Nodup) :
    sortBy key l = sortBy key l' ↔ l.Perm l' := by
  constructor
  · intro h
    exact (sortBy_perm l).symm.trans (h ▸ sortBy_perm l')
  · intro h
    have hp : (sortBy key l).Perm (sortBy key l') :=
      (sortBy_perm l).trans (h.trans (sortBy_perm l').symm)
    refine hp.eq_of_pairwise ?_ (sortBy_pairwise l) (sortBy_pairwise l')
    intro a b ha hb hle hge
    have ha' := (sortBy_perm l).mem_iff.mp ha
    have hb' := h.mem_iff.mpr ((sortBy_perm l').mem_iff.mp hb)
    exact List.inj_on_of_nodup_map hl ha' hb' (le_antisymm hle hge)
