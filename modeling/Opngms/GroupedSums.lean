/-
Opngms/GroupedSums.lean

Sums over the groups of a list, and the increments of a series.

The sum over a list is the sum over its groups (`sum_fibers`).  The growth of a
series, its last value less its first, is the sum of the increments from each
element to the next (`steps_add_steps`).  Where a series does not decrease and
its groups follow one another, the spreads of the groups, each its largest value
less its smallest, add up to the increments inside of groups (**`sum_spread`**).
-/
import Mathlib.Algebra.BigOperators.Group.List.Basic
import Mathlib.Algebra.Order.BigOperators.Group.List
import Mathlib.Algebra.Order.Group.Defs
import Mathlib.Data.List.Chain
import Mathlib.Order.Lattice
import Mathlib.Tactic.Abel

namespace GroupedSums

variable {α β G : Type*}

/-! ### Groups -/

section Fibers

variable [AddCommMonoid G] [DecidableEq β]

theorem sum_single {ks : List β} (hks : ks.Nodup) {k : β} (hk : k ∈ ks) (m : G) :
    (ks.map fun k' => if k = k' then m else 0).sum = m := by
  induction ks with
  | nil => cases hk
  | cons k' ks ih =>
    obtain ⟨hnot, hnodup⟩ := List.nodup_cons.mp hks
    rw [List.map_cons, List.sum_cons]
    rcases List.mem_cons.mp hk with rfl | hk
    · -- the element is not found again
      have hzero : (ks.map fun k' => if k = k' then m else 0) = ks.map fun _ => 0 :=
        List.map_congr_left fun k' hk' => if_neg fun h => hnot (by rwa [h])
      rw [if_pos rfl, hzero, List.sum_map_zero, add_zero]
    · have hne : k ≠ k' := fun h => hnot (by rwa [← h])
      rw [if_neg hne, zero_add]
      exact ih hnodup hk

/-- **The sum over a list, group by group.** -/
theorem sum_fibers (g : α → β) (f : α → G) {ks : List β} (hks : ks.Nodup) {l : List α}
    (hl : ∀ a ∈ l, g a ∈ ks) :
    (ks.map fun k => ((l.filter fun a => g a = k).map f).sum).sum = (l.map f).sum := by
  induction l with
  | nil => simp
  | cons a l ih =>
    have hcons : ∀ k, (((a :: l).filter fun a => g a = k).map f).sum =
        (if g a = k then f a else 0) + ((l.filter fun a => g a = k).map f).sum := by
      intro k
      rw [List.filter_cons]
      split_ifs <;> simp_all
    simp only [hcons, List.sum_map_add]
    rw [sum_single hks (hl a List.mem_cons_self), ih fun b hb => hl b (List.mem_cons_of_mem _ hb),
      List.map_cons, List.sum_cons]

end Fibers

/-! ### Series -/

section Series

variable [AddCommGroup G] (v : α → G)

def growth (l : List α) : G := (l.getLast?.map v).getD 0 - (l.head?.map v).getD 0

/-- The increments from each element to the next, between which the relation
holds. -/
def steps (P : α → α → Prop) [DecidableRel P] : List α → G
  | a :: b :: l => (if P a b then v b - v a else 0) + steps P (b :: l)
  | _ => 0

@[simp] theorem growth_nil : growth v [] = 0 := by
  simp [growth]

@[simp] theorem growth_singleton (a : α) : growth v [a] = 0 := by
  simp [growth]

theorem growth_cons_cons (a b : α) (l : List α) :
    growth v (a :: b :: l) = v b - v a + growth v (b :: l) := by
  simp only [growth, List.getLast?_cons_cons, List.head?_cons, Option.map_some, Option.getD_some]
  abel

/-- **The increments of two complementary kinds add up to the growth.** -/
theorem steps_add_steps (P : α → α → Prop) [DecidableRel P] (l : List α) :
    steps v P l + steps v (fun a b => ¬ P a b) l = growth v l := by
  induction l with
  | nil => simp [steps]
  | cons a l ih =>
    cases l with
    | nil => simp [steps]
    | cons b l =>
      rw [growth_cons_cons, ← ih, steps, steps]
      split_ifs <;> abel

theorem sum_steps [DecidableEq β] (g : α → β) {ks : List β} (hks : ks.Nodup) {l : List α}
    (hl : ∀ a ∈ l, g a ∈ ks) :
    (ks.map fun k => steps v (fun a b => g a = k ∧ g b = k) l).sum =
      steps v (fun a b => g a = g b) l := by
  induction l with
  | nil => simp [steps]
  | cons a l ih =>
    cases l with
    | nil => simp [steps]
    | cons b l =>
      simp only [steps, List.sum_map_add]
      rw [ih fun c hc => hl c (List.mem_cons_of_mem _ hc)]
      congr 1
      by_cases hab : g a = g b
      · rw [if_pos hab]
        simp only [← hab, and_self]
        exact sum_single hks (hl a List.mem_cons_self) _
      · have hzero : (ks.map fun k => if g a = k ∧ g b = k then v b - v a else 0) =
            ks.map fun _ => 0 :=
          List.map_congr_left fun k _ => if_neg fun h => hab (h.1.trans h.2.symm)
        rw [if_neg hab, hzero, List.sum_map_zero]

theorem steps_group [PartialOrder β] [DecidableEq β] (g : α → β) {l : List α}
    (hg : l.Pairwise fun a b => g a ≤ g b) (k : β) :
    steps v (fun a b => g a = k ∧ g b = k) l = growth v (l.filter fun a => g a = k) := by
  induction l with
  | nil => simp [steps]
  | cons a l ih =>
    obtain ⟨ha, hrest⟩ := List.pairwise_cons.mp hg
    have ih := ih hrest
    cases l with
    | nil => by_cases hk : g a = k <;> simp [steps, hk]
    | cons b l =>
      have hcons : ∀ c cs, g c = k →
          ((c :: cs).filter fun a => g a = k) = c :: cs.filter fun a => g a = k :=
        fun c cs hc => List.filter_cons_of_pos (by simpa using hc)
      have hskip : ∀ c cs, g c ≠ k →
          ((c :: cs).filter fun a => g a = k) = cs.filter fun a => g a = k :=
        fun c cs hc => List.filter_cons_of_neg (by simpa using hc)
      rw [steps, ih]
      by_cases hk : g a = k
      · rw [hcons a _ hk]
        by_cases hkb : g b = k
        · rw [if_pos ⟨hk, hkb⟩, hcons b _ hkb, growth_cons_cons]
        · -- the group is behind
          have hnone : ((b :: l).filter fun a => g a = k) = [] := by
            refine List.filter_eq_nil_iff.mpr fun c hc => ?_
            have hbc : g b ≤ g c := by
              rcases List.mem_cons.mp hc with rfl | hc
              · exact le_rfl
              · exact (List.pairwise_cons.mp hrest).1 c hc
            have hab : g a ≤ g b := ha b List.mem_cons_self
            simp only [decide_eq_true_eq]
            rintro rfl
            exact hkb (le_antisymm hbc (hk ▸ hab))
          rw [if_neg fun h => hkb h.2, hnone]
          simp
      · rw [if_neg fun h => hk h.1, zero_add, hskip a _ hk]

end Series

/-! ### Spreads -/

section Spread

variable [AddCommGroup G] [LinearOrder G]

def spread (vs : List G) : G := max (vs.max?.getD 0 - vs.min?.getD 0) 0

theorem spread_perm {vs vs' : List G} (h : vs.Perm vs') : spread vs = spread vs' := by
  have hmax : vs.max? = vs'.max? := by
    ext m
    rw [List.max?_eq_some_iff, List.max?_eq_some_iff, h.mem_iff]
    exact and_congr_right fun _ => forall_congr' fun _ => by rw [h.mem_iff]
  have hmin : vs.min? = vs'.min? := by
    ext m
    rw [List.min?_eq_some_iff, List.min?_eq_some_iff, h.mem_iff]
    exact and_congr_right fun _ => forall_congr' fun _ => by rw [h.mem_iff]
  rw [spread, spread, hmax, hmin]

variable [IsOrderedAddMonoid G] (v : α → G) {l : List α}

theorem growth_nonneg (hv : l.Pairwise fun a b => v a ≤ v b) : 0 ≤ growth v l := by
  induction l with
  | nil => simp
  | cons a l ih =>
    obtain ⟨ha, hrest⟩ := List.pairwise_cons.mp hv
    cases l with
    | nil => simp
    | cons b l =>
      rw [growth_cons_cons]
      exact add_nonneg (sub_nonneg.mpr (ha b List.mem_cons_self)) (ih hrest)

theorem spread_eq_growth (hv : l.Pairwise fun a b => v a ≤ v b) :
    spread (l.map v) = growth v l := by
  have hnonneg := growth_nonneg v hv
  cases l with
  | nil => simp [spread]
  | cons a l =>
    obtain ⟨ha, hrest⟩ := List.pairwise_cons.mp hv
    have hmin : ((a :: l).map v).min? = some (v a) := by
      rw [List.min?_eq_some_iff]
      refine ⟨List.mem_cons_self, fun x hx => ?_⟩
      obtain ⟨b, hb, rfl⟩ := List.mem_map.mp hx
      rcases List.mem_cons.mp hb with rfl | hb
      · exact le_rfl
      · exact ha b hb
    obtain ⟨z, hz⟩ : ∃ z, (a :: l).getLast? = some z :=
      Option.isSome_iff_exists.mp (by simp)
    have hmax : ((a :: l).map v).max? = some (v z) := by
      rw [List.max?_eq_some_iff]
      refine ⟨List.mem_map_of_mem (List.mem_of_getLast? hz), fun x hx => ?_⟩
      obtain ⟨b, hb, rfl⟩ := List.mem_map.mp hx
      obtain ⟨init, hinit⟩ := List.getLast?_eq_some_iff.mp hz
      rw [hinit] at hb hv
      rcases List.mem_append.mp hb with hb | hb
      · exact (List.pairwise_append.mp hv).2.2 b hb z (List.mem_singleton_self z)
      · rw [List.mem_singleton.mp hb]
    have hgrowth : growth v (a :: l) = v z - v a := by
      rw [growth, hz, List.head?_cons]
      rfl
    rw [spread, hmax, hmin, Option.getD_some, Option.getD_some, ← hgrowth]
    exact max_eq_left hnonneg

/-- **The spreads of the groups are the increments inside of groups.** -/
theorem sum_spread [PartialOrder β] [DecidableEq β] (g : α → β) {ks : List β} (hks : ks.Nodup)
    (hl : ∀ a ∈ l, g a ∈ ks) (hg : l.Pairwise fun a b => g a ≤ g b)
    (hv : l.Pairwise fun a b => v a ≤ v b) :
    (ks.map fun k => spread ((l.filter fun a => g a = k).map v)).sum =
      steps v (fun a b => g a = g b) l := by
  rw [← sum_steps v g hks hl]
  refine congrArg List.sum (List.map_congr_left fun k _ => ?_)
  rw [steps_group v g hg, spread_eq_growth v (hv.sublist List.filter_sublist)]

theorem steps_nonneg (P : α → α → Prop) [DecidableRel P] (hv : l.Pairwise fun a b => v a ≤ v b) :
    0 ≤ steps v P l := by
  induction l with
  | nil => simp [steps]
  | cons a l ih =>
    obtain ⟨ha, hrest⟩ := List.pairwise_cons.mp hv
    cases l with
    | nil => simp [steps]
    | cons b l =>
      rw [steps]
      refine add_nonneg ?_ (ih hrest)
      split_ifs
      · exact sub_nonneg.mpr (ha b List.mem_cons_self)
      · exact le_rfl

theorem steps_eq_zero_iff (P : α → α → Prop) [DecidableRel P]
    (hv : l.Pairwise fun a b => v a ≤ v b) :
    steps v P l = 0 ↔ l.IsChain fun a b => P a b → v a = v b := by
  induction l with
  | nil => exact iff_of_true rfl List.IsChain.nil
  | cons a l ih =>
    obtain ⟨ha, hrest⟩ := List.pairwise_cons.mp hv
    cases l with
    | nil => exact iff_of_true rfl (List.IsChain.singleton a)
    | cons b l =>
      have hab := ha b List.mem_cons_self
      have hstep : 0 ≤ if P a b then v b - v a else 0 := by
        split_ifs
        · exact sub_nonneg.mpr hab
        · exact le_rfl
      rw [steps, List.isChain_cons_cons, ← ih hrest,
        add_eq_zero_iff_of_nonneg hstep (steps_nonneg v P hrest)]
      refine and_congr_left fun _ => ?_
      by_cases hP : P a b
      · rw [if_pos hP, sub_eq_zero]
        exact ⟨fun h _ => h.symm, fun h => (h hP).symm⟩
      · rw [if_neg hP]
        exact iff_of_true rfl fun h => absurd h hP

theorem sum_sub_eq_iff {f d : α → G} {l : List α} (hd : ∀ a ∈ l, 0 ≤ d a) :
    (l.map fun a => f a - d a).sum = (l.map f).sum ↔ ∀ a ∈ l, d a = 0 := by
  have hsum : (l.map fun a => f a - d a).sum + (l.map d).sum = (l.map f).sum := by
    rw [← List.sum_map_add]
    simp only [sub_add_cancel]
  rw [← hsum, left_eq_add]
  constructor
  · intro hzero a ha
    refine List.all_zero_of_le_zero_le_of_sum_eq_zero (fun x hx => ?_) hzero
      (List.mem_map_of_mem ha)
    obtain ⟨b, hb, rfl⟩ := List.mem_map.mp hx
    exact hd b hb
  · intro hall
    rw [List.map_congr_left hall, List.sum_map_zero]

end Spread

end GroupedSums
