/-
Opngms/Keyset.lean

Keyset pagination over an ordered table.

A page is the first `n` rows, in descending order, that lie past a cursor; the
cursor of the next page is the key of the last row, and there is one when the page is
full.  The table may change between two pages.

`page_complete` says what one page leaves out, `page_some` where a page of an unchanged table
goes on, and `Reading` strings pages together.
Main results: **`Reading.descending`** (no key twice), **`Reading.complete`** (no row is
missed that is there throughout), **`exists_reading`** (over one table it ends).

The names follow no program: rows, keys and the filter are parameters.
-/
import Mathlib.Data.List.Basic
import Mathlib.Order.Lattice

namespace Keyset

variable {α K : Type} [LinearOrder K] (key : α → K)

def descending (rows : List α) : List α := rows.mergeSort fun a b => decide (key b ≤ key a)

/-- The rows past a cursor: those with lower keys. -/
def isPast : Option K → α → Bool
  | none, _ => true
  | some k, a => decide (key a < k)

/-- The rows that a page past `after` is taken from. -/
def remaining (p : α → Bool) (after : Option K) (rows : List α) : List α :=
  rows.filter fun a => p a && isPast key after a

/-- `ORDER BY key DESC LIMIT n` past the cursor. -/
def page (p : α → Bool) (after : Option K) (n : Nat) (rows : List α) : List α :=
  (descending key (remaining key p after rows)).take n

/-- The cursor of the next page: only a full page has one. -/
def next (n : Nat) (items : List α) : Option K :=
  if items.length = n then items.getLast?.map key else none

def Distinct (rows : List α) : Prop := (rows.map key).Nodup

/-! ### One page -/

variable {key} {p : α → Bool} {after : Option K} {n : Nat} {rows : List α}

theorem mem_remaining {a : α} :
    a ∈ remaining key p after rows ↔ a ∈ rows ∧ p a ∧ isPast key after a := by
  simp [remaining]

theorem descending_pairwise (h : Distinct key rows) :
    (descending key rows).Pairwise fun a b => key b < key a := by
  have hsorted : (descending key rows).Pairwise fun a b => decide (key b ≤ key a) = true := by
    apply List.pairwise_mergeSort
    · intro a b c hab hbc
      simp only [decide_eq_true_eq] at *
      exact le_trans hbc hab
    · intro a b
      simp only [Bool.or_eq_true, decide_eq_true_eq]
      exact le_total _ _
  have hne : (descending key rows).Pairwise fun a b => key a ≠ key b := by
    have hnodup : ((descending key rows).map key).Nodup :=
      ((List.mergeSort_perm rows _).map key).nodup_iff.mpr h
    exact List.pairwise_map.mp hnodup
  refine (hsorted.and hne).imp ?_
  rintro a b ⟨hle, hneq⟩
  exact lt_of_le_of_ne (of_decide_eq_true hle) (Ne.symm hneq)

theorem Distinct.remaining (h : Distinct key rows) :
    Distinct key (remaining key p after rows) :=
  List.Nodup.sublist (List.filter_sublist.map key) h

theorem page_pairwise (h : Distinct key rows) :
    (page key p after n rows).Pairwise fun a b => key b < key a :=
  (descending_pairwise h.remaining).sublist (List.take_sublist _ _)

theorem mem_of_mem_page {a : α} (h : a ∈ page key p after n rows) :
    a ∈ rows ∧ p a ∧ isPast key after a :=
  mem_remaining.mp (List.mem_mergeSort.mp (List.mem_of_mem_take h))

/-- **What a page leaves out lies below all it holds, and then it is full.** -/
theorem page_complete (h : Distinct key rows) {a : α} (ha : a ∈ rows) (hp : p a)
    (hpast : isPast key after a) : a ∈ page key p after n rows ∨
      (page key p after n rows).length = n ∧ ∀ b ∈ page key p after n rows, key a < key b := by
  have hmem : a ∈ descending key (remaining key p after rows) :=
    List.mem_mergeSort.mpr (mem_remaining.mpr ⟨ha, hp, hpast⟩)
  have hpair : (descending key (remaining key p after rows)).Pairwise fun a b => key b < key a :=
    descending_pairwise h.remaining
  rw [page]
  generalize descending key (remaining key p after rows) = sorted at *
  rw [← List.take_append_drop n sorted, List.pairwise_append] at hpair
  rw [← List.take_append_drop n sorted, List.mem_append] at hmem
  rcases hmem with htake | hdrop
  · exact Or.inl htake
  · right
    refine ⟨?_, fun b hb => hpair.2.2 b hb a hdrop⟩
    have hlen : n < sorted.length := by
      by_contra hle
      rw [List.drop_eq_nil_of_le (Nat.not_lt.mp hle)] at hdrop
      exact List.not_mem_nil hdrop
    rw [List.length_take]
    omega

theorem next_eq_some {items : List α} {k : K} (h : next key n items = some k)
    (hpair : items.Pairwise fun a b => key b < key a) :
    items.length = n ∧ (∀ b ∈ items, k ≤ key b) ∧ ∃ a ∈ items, key a = k := by
  unfold next at h
  split at h
  · rename_i hlen
    obtain ⟨last, hlast, rfl⟩ := Option.map_eq_some_iff.mp h
    refine ⟨hlen, ?_, last, List.mem_of_getLast? hlast, rfl⟩
    intro b hb
    obtain ⟨init, rfl⟩ := List.getLast?_eq_some_iff.mp hlast
    rcases List.mem_append.mp hb with hinit | hlast
    · exact le_of_lt ((List.pairwise_append.mp hpair).2.2 b hinit last (by simp))
    · rw [List.mem_singleton.mp hlast]
  · cases h

omit [LinearOrder K] in
theorem next_eq_none {items : List α} (hn : 0 < n) (h : next key n items = none) :
    items.length ≠ n := by
  intro hlen
  rw [next, if_pos hlen, Option.map_eq_none_iff, List.getLast?_eq_none_iff] at h
  rw [h, List.length_nil] at hlen
  omega

/-! ### The pages of one table -/

variable (key p rows) in
def listing : List α := descending key (rows.filter p)

theorem descending_eq_of_perm {l : List α} (h : Distinct key rows) (hl : l.Perm rows)
    (hpair : l.Pairwise fun a b => key b < key a) : descending key rows = l := by
  have hperm : (descending key rows).Perm l := (List.mergeSort_perm rows _).trans hl.symm
  refine List.Perm.eq_of_pairwise ?_ (descending_pairwise h) hpair hperm
  intro a b _ _ hab hba
  exact absurd hab (lt_asymm hba)

theorem descending_of_pairwise (h : Distinct key rows)
    (hpair : rows.Pairwise fun a b => key b < key a) : descending key rows = rows :=
  descending_eq_of_perm h (List.Perm.refl rows) hpair

theorem descending_filter (h : Distinct key rows) (q : α → Bool) :
    descending key (rows.filter q) = (descending key rows).filter q := by
  apply descending_eq_of_perm (List.Nodup.sublist (List.filter_sublist.map key) h)
  · exact (List.mergeSort_perm rows _).filter q
  · exact (descending_pairwise h).filter q

theorem listing_pairwise (h : Distinct key rows) :
    (listing key p rows).Pairwise fun a b => key b < key a :=
  descending_pairwise (List.Nodup.sublist (List.filter_sublist.map key) h)

theorem page_none : page key p none n rows = (listing key p rows).take n := by
  have hall : remaining key p none rows = rows.filter p := by
    apply List.filter_congr
    intro a _
    exact Bool.and_true _
  rw [page, hall, listing]

/-- **A page past a row of the listing goes on after that row.** -/
theorem page_some (h : Distinct key rows) {l₁ l₂ : List α} {b : α}
    (hl : listing key p rows = l₁ ++ b :: l₂) : page key p (some (key b)) n rows = l₂.take n := by
  have hsplit : remaining key p (some (key b)) rows =
      (rows.filter p).filter (isPast key (some (key b))) := by
    rw [List.filter_filter]
    apply List.filter_congr
    intro a _
    exact Bool.and_comm _ _
  have hpair := listing_pairwise (p := p) h
  rw [hl, List.pairwise_append] at hpair
  obtain ⟨-, hb, hcross⟩ := hpair
  obtain ⟨hbelow, -⟩ := List.pairwise_cons.mp hb
  have hfirst : l₁.filter (isPast key (some (key b))) = [] := by
    apply List.filter_eq_nil_iff.mpr
    intro a ha hpast
    exact absurd (of_decide_eq_true hpast) (lt_asymm (hcross a ha b List.mem_cons_self))
  have hself : isPast key (some (key b)) b = false := decide_eq_false (lt_irrefl (key b))
  have hrest : l₂.filter (isPast key (some (key b))) = l₂ := by
    apply List.filter_eq_self.mpr
    intro a ha
    exact decide_eq_true (hbelow a ha)
  have hdistinct : Distinct key (rows.filter p) :=
    List.Nodup.sublist (List.filter_sublist.map key) h
  rw [page, hsplit, descending_filter hdistinct]
  show ((listing key p rows).filter (isPast key (some (key b)))).take n = l₂.take n
  rw [hl, List.filter_append, List.filter_cons, hfirst, hself, hrest]
  rfl

omit [LinearOrder K] in
theorem next_eq_some_last {items : List α} {k : K} (h : next key n items = some k) :
    ∃ init last, items = init ++ [last] ∧ key last = k := by
  unfold next at h
  split at h
  · obtain ⟨last, hlast, hk⟩ := Option.map_eq_some_iff.mp h
    obtain ⟨init, hinit⟩ := List.getLast?_eq_some_iff.mp hlast
    exact ⟨init, last, hinit, hk⟩
  · cases h

omit [LinearOrder K] in
theorem drop_of_next_none {l : List α} (hn : 0 < n) (h : next key n (l.take n) = none) :
    l.drop n = [] := by
  have hlen := next_eq_none hn h
  rw [List.length_take] at hlen
  apply List.drop_eq_nil_of_le
  omega

theorem page_congr {q : α → Bool} (h : ∀ a ∈ rows, isPast key after a → p a = q a) :
    page key p after n rows = page key q after n rows := by
  have hremaining : remaining key p after rows = remaining key q after rows := by
    apply List.filter_congr
    intro a ha
    cases hpast : isPast key after a with
    | false => rw [Bool.and_false, Bool.and_false]
    | true => rw [h a ha hpast]
  rw [page, page, hremaining]

/-! ### A reading: one page after the other -/

variable (key p n) in
/-- The rows of the pages read from the tables met, from a cursor to a cursor. -/
inductive Reading : Option K → List (List α) → List α → Option K → Prop
  | one {after : Option K} {rows : List α} :
      Reading after [rows] (page key p after n rows) (next key n (page key p after n rows))
  | more {after : Option K} {rows : List α} {tables : List (List α)} {rest : List α} {k : K}
      {last : Option K} :
      next key n (page key p after n rows) = some k → Reading (some k) tables rest last →
      Reading after (rows :: tables) (page key p after n rows ++ rest) last

variable {tables : List (List α)} {items : List α} {last : Option K}

theorem Reading.mem (h : Reading key p n after tables items last) :
    (∀ rows ∈ tables, Distinct key rows) → ∀ a ∈ items,
      (∃ rows ∈ tables, a ∈ rows) ∧ p a ∧ isPast key after a := by
  induction h with
  | one =>
    intro _ a ha
    obtain ⟨hrows, hp, hpast⟩ := mem_of_mem_page ha
    exact ⟨⟨_, List.mem_singleton_self _, hrows⟩, hp, hpast⟩
  | @more after rows tables rest k last hnext _ ih =>
    intro hdistinct a ha
    have hrows := hdistinct rows (List.mem_cons_self ..)
    rcases List.mem_append.mp ha with hpage | hrest
    · obtain ⟨hrows, hp, hpast⟩ := mem_of_mem_page hpage
      exact ⟨⟨_, List.mem_cons_self .., hrows⟩, hp, hpast⟩
    · obtain ⟨⟨t, ht, hat⟩, hp, hpast⟩ :=
        ih (fun t ht => hdistinct t (List.mem_cons_of_mem _ ht)) a hrest
      refine ⟨⟨t, List.mem_cons_of_mem _ ht, hat⟩, hp, ?_⟩
      -- the page's last row is past the cursor, and `a` is past that row
      obtain ⟨_, _, b, hb, rfl⟩ := next_eq_some hnext (page_pairwise hrows)
      have hlow := (mem_of_mem_page hb).2.2
      cases after with
      | none => rfl
      | some k =>
        simp only [isPast, decide_eq_true_eq] at *
        exact lt_trans hpast hlow

/-- **The keys of a reading descend strictly: no key is read twice.** -/
theorem Reading.descending (h : Reading key p n after tables items last) :
    (∀ rows ∈ tables, Distinct key rows) → items.Pairwise fun a b => key b < key a := by
  induction h with
  | one => exact fun hdistinct => page_pairwise (hdistinct _ (List.mem_singleton_self _))
  | @more after rows tables rest k last hnext hreading ih =>
    intro hdistinct
    have hpair : (page key p after n rows).Pairwise fun a b => key b < key a :=
      page_pairwise (hdistinct rows (List.mem_cons_self ..))
    have htables : ∀ t ∈ tables, Distinct key t := fun t ht =>
      hdistinct t (List.mem_cons_of_mem _ ht)
    refine List.pairwise_append.mpr ⟨hpair, ih htables, ?_⟩
    intro a ha b hb
    have hpast := (hreading.mem htables b hb).2.2
    simp only [isPast, decide_eq_true_eq] at hpast
    exact lt_of_lt_of_le hpast ((next_eq_some hnext hpair).2.1 a ha)

/-- **A reading that ends misses no row that was there throughout.** -/
theorem Reading.complete (hn : 0 < n) (h : Reading key p n after tables items last) :
    (∀ rows ∈ tables, Distinct key rows) → last = none → ∀ a, p a → isPast key after a →
      (∀ rows ∈ tables, a ∈ rows) → a ∈ items := by
  induction h with
  | @one after rows =>
    intro hdistinct hlast a hp hpast hthere
    have hmem := List.mem_singleton_self rows
    rcases page_complete (n := n) (hdistinct rows hmem) (hthere rows hmem) hp hpast with
      hin | ⟨hlen, _⟩
    · exact hin
    · exact absurd hlen (next_eq_none hn hlast)
  | @more after rows tables rest k last hnext _ ih =>
    intro hdistinct hlast a hp hpast hthere
    have hmem : rows ∈ rows :: tables := List.mem_cons_self ..
    rcases page_complete (n := n) (hdistinct rows hmem) (hthere rows hmem) hp hpast with
      hin | ⟨_, hbelow⟩
    · exact List.mem_append_left _ hin
    · apply List.mem_append_right
      apply ih (fun t ht => hdistinct t (List.mem_cons_of_mem _ ht)) hlast a hp ?_
        fun t ht => hthere t (List.mem_cons_of_mem _ ht)
      obtain ⟨_, _, b, hb, rfl⟩ := next_eq_some hnext (page_pairwise (hdistinct rows hmem))
      exact decide_eq_true (hbelow b hb)

theorem remaining_shrinks {k : K} (hdistinct : Distinct key rows)
    (hnext : next key n (page key p after n rows) = some k) :
    (remaining key p (some k) rows).length < (remaining key p after rows).length := by
  obtain ⟨_, _, b, hb, rfl⟩ := next_eq_some hnext (page_pairwise hdistinct)
  obtain ⟨hrows, hp, hpast⟩ := mem_of_mem_page hb
  have hsub : ∀ a, isPast key (some (key b)) a → isPast key after a := by
    intro a ha
    cases after with
    | none => rfl
    | some k =>
      simp only [isPast, decide_eq_true_eq] at *
      exact lt_trans ha hpast
  have heq : remaining key p (some (key b)) rows =
      (remaining key p after rows).filter fun a => isPast key (some (key b)) a := by
    simp only [remaining, List.filter_filter]
    apply List.filter_congr
    intro a _
    cases ha : isPast key (some (key b)) a with
    | true => simp [hsub a ha]
    | false => simp
  rw [heq]
  refine List.length_filter_lt_length_iff_exists.mpr ⟨b, mem_remaining.mpr ⟨hrows, hp, hpast⟩, ?_⟩
  simp [isPast]

/-- **Over one table a reading comes to its end**, after at most one page for each row left. -/
theorem exists_reading (hdistinct : Distinct key rows) (after : Option K) :
    ∃ calls items, calls ≤ (remaining key p after rows).length + 1 ∧
      Reading key p n after (List.replicate calls rows) items none := by
  generalize hsize : (remaining key p after rows).length = size
  induction size using Nat.strongRecOn generalizing after with
  | ind size ih =>
    cases hnext : next key n (page key p after n rows) with
    | none =>
      refine ⟨1, page key p after n rows, by omega, ?_⟩
      have hone : Reading key p n after [rows] _ _ := Reading.one
      rw [hnext] at hone
      exact hone
    | some k =>
      have hless := remaining_shrinks hdistinct hnext
      rw [hsize] at hless
      obtain ⟨calls, items, hcalls, hreading⟩ := ih _ hless (some k) rfl
      exact ⟨calls + 1, _, by omega, Reading.more hnext hreading⟩

end Keyset
