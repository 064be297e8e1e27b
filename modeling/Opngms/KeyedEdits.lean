/-
Opngms/KeyedEdits.lean

Changes of a store that look their row up by its fields.

A change that is addressed by a name searches a table for the rows that carry
the name.  It may remove the one row it finds, or write it, or add a row where
it finds none; where it finds several it does nothing.  A `Deed` is what such a
change did.  It is taken back by another change of this kind, which searches the
store as the deed left it, so it may well find another row, or none.

Main results: **`restores_removal`** says when a removal takes a deed back, and
**`restores_placing`** when writing a row back does.
-/
import Opngms.RowStore
import Mathlib.Data.Multiset.ZeroCons

variable {U Γ Φ : Type}

/-- What a change did to the rows of one table. -/
inductive Deed (U Γ Φ : Type) where
  | nothing
  | added (fields : Φ)
  | wrote (row : Row U Γ Φ) (change : Φ → Φ)
  | removed (row : Row U Γ Φ)

/-- What is written for a record: as a new row, and over the fields of a row. -/
structure Rewrite (Φ : Type) where
  fresh : Φ
  onto : Φ → Φ

/-- Whether a record is written over the row found, added where there is none,
or either. -/
inductive Way where
  | upsert
  | update
  | insert
  deriving DecidableEq

namespace Deed

/-- The edits of a deed. -/
def edits (γ : Γ) : Deed U Γ Φ → List (Edit U Γ Φ)
  | nothing => []
  | added φ => [.add γ φ]
  | wrote r f => [.set γ r.uuid f]
  | removed r => [.del γ r.uuid]

/-- The row of the store that the deed is about. -/
def row : Deed U Γ Φ → Option (Row U Γ Φ)
  | nothing => none
  | added _ => none
  | wrote r _ => some r
  | removed r => some r

/-- The deed left all rows as they were. -/
def Idle : Deed U Γ Φ → Prop
  | nothing => True
  | added _ => False
  | wrote r f => f r.fields = r.fields
  | removed _ => False

end Deed

namespace RowStore

section Search

variable [DecidableEq Γ] {S : RowStore U Γ Φ} {γ : Γ} {q : Φ → Bool} {r : Row U Γ Φ}

/-- The rows of a table whose fields satisfy `q`. -/
def matching (S : RowStore U Γ Φ) (γ : Γ) (q : Φ → Bool) : List (Row U Γ Φ) :=
  S.rows.filter fun r => decide (r.table = γ) && q r.fields

theorem mem_matching : r ∈ S.matching γ q ↔ r ∈ S.rows ∧ r.table = γ ∧ q r.fields = true := by
  rw [matching, List.mem_filter, Bool.and_eq_true, decide_eq_true_iff]

theorem matching_nodup : (S.matching γ q).Nodup := (S.distinct.of_map _).filter _

theorem matching_eq_singleton :
    S.matching γ q = [r] ↔ r ∈ S.matching γ q ∧ ∀ r' ∈ S.matching γ q, r' = r := by
  constructor
  · intro h
    rw [h]
    exact ⟨List.mem_singleton_self r, fun r' => List.mem_singleton.mp⟩
  · rintro ⟨hr, hall⟩
    refine List.perm_singleton.mp ((List.perm_ext_iff_of_nodup matching_nodup
      (List.nodup_singleton r)).mpr fun r' => ⟨fun h => ?_, fun h => ?_⟩)
    · exact List.mem_singleton.mpr (hall r' h)
    · exact List.mem_singleton.mp h ▸ hr

/-! ### Changes by search -/

def removal (S : RowStore U Γ Φ) (γ : Γ) (q : Φ → Bool) : Deed U Γ Φ :=
  match S.matching γ q with
  | [r] => .removed r
  | _ => .nothing

/-- A row is written where one is found, added where there is none, or both. -/
def placing (S : RowStore U Γ Φ) (way : Way) (γ : Γ) (q : Φ → Bool) (w : Rewrite Φ) : Deed U Γ Φ :=
  match S.matching γ q with
  | [] => if way = .update then .nothing else .added w.fresh
  | [r] => if way = .insert then .nothing else .wrote r w.onto
  | _ => .nothing

end Search

/-! ### The store after a deed -/

section After

variable [DecidableEq U] [DecidableEq Γ] {ν : Supply U} {S : RowStore U Γ Φ} {γ : Γ} {q : Φ → Bool}
  {r : Row U Γ Φ} {φ : Φ} {f g : Φ → Φ} {d : Deed U Γ Φ}

/-- The store after a deed in the table `γ`. -/
def after (ν : Supply U) (S : RowStore U Γ Φ) (γ : Γ) (d : Deed U Γ Φ) : RowStore U Γ Φ :=
  S.edits ν (d.edits γ)

/-- The row a deed is about is in the table. -/
def Holds (S : RowStore U Γ Φ) (γ : Γ) (d : Deed U Γ Φ) : Prop :=
  ∀ r, d.row = some r → r ∈ S.rows ∧ r.table = γ

omit [DecidableEq U] [DecidableEq Γ] in
theorem holds_wrote (hr : r ∈ S.rows) (ht : r.table = γ) : S.Holds γ (.wrote r f) :=
  fun _ h => Option.some.inj h ▸ ⟨hr, ht⟩

theorem is_self (ht : r.table = γ) : r.is γ r.uuid = true := Row.is_iff.mpr ⟨ht, rfl⟩

theorem is_eq {r' : Row U Γ Φ} (hr : r ∈ S.rows) (hr' : r' ∈ S.rows) (h : r'.is γ r.uuid = true) :
    r' = r :=
  row_unique hr' hr (Row.is_iff.mp h).2

omit [DecidableEq U] [DecidableEq Γ] in
theorem pick_fresh (ν : Supply U) (S : RowStore U Γ Φ) : ν.pick S.issued ∉ S.rows.map Row.uuid := by
  intro h
  obtain ⟨r, hr, hu⟩ := List.mem_map.mp h
  exact ν.fresh S.issued (hu ▸ S.known r hr)

omit [DecidableEq U] [DecidableEq Γ] in
theorem Restores.refl (S : RowStore U Γ Φ) : S.Restores S := ⟨fun _ hr _ => hr, .refl _⟩

omit [DecidableEq U] [DecidableEq Γ] in
theorem Restores.length_eq {T : RowStore U Γ Φ} (h : S.Restores T) : T.rows.length = S.rows.length := by
  simpa using h.same.length_eq

theorem mem_added {r' : Row U Γ Φ} :
    r' ∈ (S.after ν γ (.added φ)).rows ↔ r' ∈ S.rows ∨ r' = ⟨ν.pick S.issued, γ, φ⟩ := by
  show r' ∈ S.rows ++ _ ↔ _
  rw [List.mem_append]
  exact or_congr_right List.mem_singleton

theorem mem_wrote {r' : Row U Γ Φ} (hr : r ∈ S.rows) (ht : r.table = γ) :
    r' ∈ (S.after ν γ (.wrote r f)).rows ↔
      (r' ∈ S.rows ∧ r' ≠ r) ∨ r' = { r with fields := f r.fields } := by
  have hself : (Edit.set γ r.uuid f).patch r = { r with fields := f r.fields } :=
    if_pos (is_self ht)
  have hother : ∀ r₀ ∈ S.rows, r₀ ≠ r → (Edit.set γ r.uuid f).patch r₀ = r₀ := fun r₀ h₀ hne =>
    if_neg fun h => hne (is_eq hr h₀ h)
  show r' ∈ S.rows.map _ ↔ _
  rw [List.mem_map]
  constructor
  · rintro ⟨r₀, h₀, rfl⟩
    by_cases h : r₀ = r
    · exact .inr (h ▸ hself)
    · rw [hother r₀ h₀ h]
      exact .inl ⟨h₀, h⟩
  · rintro (⟨h, hne⟩ | rfl)
    · exact ⟨r', h, hother r' h hne⟩
    · exact ⟨r, hr, hself⟩

theorem mem_removed_row {r' : Row U Γ Φ} (hr : r ∈ S.rows) (ht : r.table = γ) :
    r' ∈ (S.after ν γ (.removed r)).rows ↔ r' ∈ S.rows ∧ r' ≠ r := by
  show r' ∈ S.rows.filter _ ↔ _
  rw [List.mem_filter, Bool.not_eq_true']
  refine and_congr_right fun h => ⟨fun hnot heq => ?_, fun hne => ?_⟩
  · rw [heq, is_self ht] at hnot
    cases hnot
  · exact Bool.eq_false_iff.mpr fun h' => hne (is_eq hr h h')

theorem perm_removed (hr : r ∈ S.rows) (ht : r.table = γ) :
    S.rows.Perm (r :: (S.after ν γ (.removed r)).rows) := by
  have hnodup : (S.after ν γ (.removed r)).rows.Nodup := (S.after ν γ (.removed r)).distinct.of_map _
  refine (List.perm_ext_iff_of_nodup (S.distinct.of_map _) (List.nodup_cons.mpr ⟨?_, hnodup⟩)).mpr
    fun r' => ?_
  · exact fun h => ((mem_removed_row hr ht).mp h).2 rfl
  · rw [List.mem_cons, mem_removed_row hr ht]
    by_cases h : r' = r
    · exact iff_of_true (h ▸ hr) (.inl h)
    · simp [h]

theorem length_added : (S.after ν γ (.added φ)).rows.length = S.rows.length + 1 :=
  List.length_append

theorem length_wrote : (S.after ν γ (.wrote r f)).rows.length = S.rows.length :=
  List.length_map _

theorem length_removed (hr : r ∈ S.rows) (ht : r.table = γ) :
    S.rows.length = (S.after ν γ (.removed r)).rows.length + 1 :=
  (perm_removed hr ht).length_eq

/-! ### Two deeds -/

omit [DecidableEq U] [DecidableEq Γ] in
theorem eq_of_rows {T : RowStore U Γ Φ} (hrows : T.rows = S.rows) (hissued : T.issued = S.issued) :
    T = S := by
  cases S
  cases T
  cases hrows
  cases hissued
  rfl

theorem after_idle (hd : d.Idle) (hS : S.Holds γ d) : S.after ν γ d = S := by
  cases d with
  | nothing => rfl
  | added φ => cases hd
  | removed r => cases hd
  | wrote r f =>
    obtain ⟨hr, -⟩ := hS r rfl
    refine eq_of_rows ?_ rfl
    refine (List.map_congr_left fun r' hr' => ?_).trans (List.map_id _)
    show (if r'.is γ r.uuid then { r' with fields := f r'.fields } else r') = r'
    split
    · rename_i h
      rw [is_eq hr hr' h, show f r.fields = r.fields from hd]
    · rfl

omit [DecidableEq U] [DecidableEq Γ] in
theorem Restores.fields_eq {T : RowStore U Γ Φ} (h : S.Restores T) (hr : r ∈ S.rows)
    (hT : { r with fields := φ } ∈ T.rows) : φ = r.fields := by
  have hmem := h.kept _ hT (List.mem_map.mpr ⟨r, hr, rfl⟩)
  exact congrArg Row.fields (row_unique hmem hr rfl)

@[simp] theorem after_nothing : S.after ν γ .nothing = S := rfl

theorem restores_iff_idle (hd : S.Holds γ d) : S.Restores (S.after ν γ d) ↔ d.Idle := by
  refine ⟨fun h => ?_, fun h => by rw [after_idle h hd]; exact .refl S⟩
  cases d with
  | nothing => trivial
  | added φ => exact absurd (length_added (ν := ν).symm.trans h.length_eq) (Nat.succ_ne_self _)
  | wrote r f =>
    obtain ⟨hr, ht⟩ := hd r rfl
    exact h.fields_eq hr ((mem_wrote hr ht).mpr (.inr rfl))
  | removed r =>
    obtain ⟨hr, ht⟩ := hd r rfl
    have hlen := length_removed (ν := ν) hr ht
    rw [h.length_eq] at hlen
    exact absurd hlen.symm (Nat.succ_ne_self _)

theorem after_wrote_wrote :
    (S.after ν γ (.wrote r f)).after ν γ (.wrote { r with fields := φ } g) =
      S.after ν γ (.wrote r (g ∘ f)) := by
  refine eq_of_rows ?_ rfl
  refine List.map_map.trans (List.map_congr_left fun r' _ => ?_)
  show (Edit.set γ r.uuid g).patch ((Edit.set γ r.uuid f).patch r') = (Edit.set γ r.uuid (g ∘ f)).patch r'
  cases h : r'.is γ r.uuid with
  | true =>
    have h' : Row.is { r' with fields := f r'.fields } γ r.uuid = true := h
    simp [Edit.patch, h, h']
  | false => simp [Edit.patch, h]

theorem heads_eq {α : Type} {a b : α} {l : List α} (h : (a :: l).Perm (b :: l)) : a = b :=
  (Multiset.cons_inj_left (l : Multiset α)).mp (Multiset.coe_eq_coe.mpr h)

theorem restores_removed_added (hr : r ∈ S.rows) (ht : r.table = γ) :
    S.Restores ((S.after ν γ (.removed r)).after ν γ (.added φ)) ↔ φ = r.fields := by
  have hrows : ((S.after ν γ (.removed r)).after ν γ (.added φ)).rows =
      (S.after ν γ (.removed r)).rows ++ [⟨ν.pick S.issued, γ, φ⟩] := rfl
  have hperm := (perm_removed (ν := ν) hr ht).map Row.content
  have hlast : ∀ c : Row U Γ Φ, (((S.after ν γ (.removed r)).rows ++ [c]).map Row.content).Perm
      (c.content :: (S.after ν γ (.removed r)).rows.map Row.content) := fun c =>
    (List.perm_append_singleton c _).map Row.content
  constructor
  · intro h
    have hsame := h.same
    rw [hrows] at hsame
    have hheads := ((hlast _).symm.trans hsame).trans hperm
    exact congrArg Prod.snd (heads_eq hheads)
  · rintro rfl
    refine ⟨fun r' hr' hu => ?_, ?_⟩
    · rcases mem_added.mp hr' with h | rfl
      · exact ((mem_removed_row hr ht).mp h).1
      · exact absurd hu (pick_fresh ν S)
    · rw [hrows]
      refine (hlast _).trans ?_
      have hcontent : Row.content ⟨ν.pick S.issued, γ, r.fields⟩ = r.content :=
        congrArg (·, r.fields) ht.symm
      rw [hcontent]
      exact hperm.symm

theorem restores_added_removed {r' : Row U Γ Φ} (hr' : r' ∈ (S.after ν γ (.added φ)).rows)
    (ht : r'.table = γ) :
    S.Restores ((S.after ν γ (.added φ)).after ν γ (.removed r')) ↔ r'.content = (γ, φ) := by
  have hperm := perm_removed (ν := ν) hr' ht
  have hlast : (S.after ν γ (.added φ)).rows.Perm (⟨ν.pick S.issued, γ, φ⟩ :: S.rows) :=
    List.perm_append_singleton _ _
  constructor
  · intro h
    have hheads := ((hlast.map Row.content).symm.trans (hperm.map Row.content)).trans
      (h.same.cons r'.content)
    exact (heads_eq hheads).symm
  · intro h
    have hcontent := (hperm.map Row.content).symm.trans (hlast.map Row.content)
    rw [List.map_cons, List.map_cons, h] at hcontent
    refine ⟨fun r₀ h₀ hu => ?_, hcontent.cons_inv⟩
    rcases mem_added.mp ((mem_removed_row hr' ht).mp h₀).1 with h₀ | rfl
    · exact h₀
    · exact absurd hu (pick_fresh ν S)

/-! ### Taking a deed back -/

theorem matching_added : (S.after ν γ (.added φ)).matching γ q =
    S.matching γ q ++ if q φ then [⟨ν.pick S.issued, γ, φ⟩] else [] := by
  show (S.rows ++ [_]).filter _ = _
  rw [List.filter_append]
  refine congrArg (S.matching γ q ++ ·) ?_
  cases hq : q φ <;> simp [hq]

/-- A removal takes back nothing where the deed is idle and the search does not
find one row, and an addition where the search finds just the added row. -/
def RemovalUndoes (S : RowStore U Γ Φ) (γ : Γ) (q : Φ → Bool) (d : Deed U Γ Φ) : Prop :=
  (d.Idle ∧ (S.matching γ q).length ≠ 1) ∨ ∃ φ, d = .added φ ∧ S.matching γ q = [] ∧ q φ = true

omit [DecidableEq U] in
theorem removal_cases (T : RowStore U Γ Φ) (γ : Γ) (q : Φ → Bool) :
    (∃ r, T.matching γ q = [r] ∧ T.removal γ q = .removed r) ∨
      ((T.matching γ q).length ≠ 1 ∧ T.removal γ q = .nothing) := by
  rcases h : T.matching γ q with - | ⟨r, - | ⟨r', rs⟩⟩
  · exact .inr ⟨by simp, by simp [removal, h]⟩
  · exact .inl ⟨r, rfl, by simp [removal, h]⟩
  · exact .inr ⟨by simp, by simp [removal, h]⟩

omit [DecidableEq U] in
theorem mem_of_matching (h : S.matching γ q = [r]) : r ∈ S.rows ∧ r.table = γ ∧ q r.fields = true :=
  mem_matching.mp (h ▸ List.mem_singleton_self r)

theorem restores_removal_of_idle (S : RowStore U Γ Φ) (ν : Supply U) (γ : Γ) (q : Φ → Bool) :
    S.Restores (S.after ν γ (S.removal γ q)) ↔ (S.matching γ q).length ≠ 1 := by
  rcases removal_cases S γ q with ⟨r, hm, hr⟩ | ⟨hm, hr⟩
  · obtain ⟨hmem, ht, -⟩ := mem_of_matching hm
    rw [hr, hm]
    refine iff_of_false (fun h => ?_) (by simp)
    have hlen := length_removed (ν := ν) hmem ht
    rw [h.length_eq] at hlen
    omega
  · rw [hr]
    exact iff_of_true (.refl S) hm

/-- **A removal takes a deed back exactly where the deed was idle and the search
does not find one row, or added the only row that it finds.** -/
theorem restores_removal (hd : S.Holds γ d) :
    S.Restores ((S.after ν γ d).after ν γ ((S.after ν γ d).removal γ q)) ↔
      S.RemovalUndoes γ q d := by
  by_cases hidle : d.Idle
  · rw [after_idle hidle hd, restores_removal_of_idle, RemovalUndoes, and_iff_right hidle]
    refine (or_iff_left ?_).symm
    rintro ⟨φ, rfl, -⟩
    exact hidle
  rw [RemovalUndoes, or_iff_right fun h => hidle h.1]
  rcases removal_cases (S.after ν γ d) γ q with ⟨r', hm, hrem⟩ | ⟨hm, hrem⟩
  · obtain ⟨hmem, ht', hq'⟩ := mem_of_matching hm
    have hless := length_removed (ν := ν) hmem ht'
    rw [hrem]
    -- one row goes: only an addition leaves a row too many
    cases d with
    | nothing => exact absurd trivial hidle
    | added φ =>
      rw [matching_added] at hm
      rw [restores_added_removed hmem ht']
      constructor
      · intro hcontent
        have hφ : r'.fields = φ := congrArg Prod.snd hcontent
        have hq : q φ = true := hφ ▸ hq'
        rw [if_pos hq] at hm
        refine ⟨φ, rfl, List.length_eq_zero_iff.mp ?_, hq⟩
        simpa using congrArg List.length hm
      · rintro ⟨φ', hφ, hnone, hq⟩
        obtain rfl := Deed.added.inj hφ
        rw [if_pos hq, hnone] at hm
        exact congrArg Row.content (List.singleton_inj.mp hm).symm
    | wrote r f =>
      refine iff_of_false (fun h => ?_) (by rintro ⟨φ, hφ, -⟩; cases hφ)
      rw [h.length_eq, length_wrote] at hless
      omega
    | removed r =>
      obtain ⟨hr, ht⟩ := hd r rfl
      have hfirst := length_removed (ν := ν) hr ht
      refine iff_of_false (fun h => ?_) (by rintro ⟨φ, hφ, -⟩; cases hφ)
      rw [h.length_eq] at hless
      omega
  · -- nothing goes, so the deed stays as it is
    rw [hrem, after_nothing, restores_iff_idle hd]
    refine iff_of_false hidle ?_
    rintro ⟨φ, rfl, hnone, hq⟩
    rw [matching_added, if_pos hq, hnone] at hm
    exact hm rfl

/-! ### Writing a row back -/

/-- Writing a row back takes a deed back where the deed was idle and the one row
found, if it is one, is written as it is, or where the deed wrote or removed the
only row that carried the name, and what is written for it now are its fields. -/
def WritingUndoes (S : RowStore U Γ Φ) (γ : Γ) (q : Φ → Bool) (back : Φ → Option (Rewrite Φ))
    (d : Deed U Γ Φ) : Prop :=
  (d.Idle ∧ ∀ r, S.matching γ q = [r] → ∀ w, back r.fields = some w → w.onto r.fields = r.fields) ∨
  (∃ r f, d = .wrote r f ∧ S.matching γ q = [r] ∧ q (f r.fields) = true ∧
    ∃ w, back r.fields = some w ∧ w.onto (f r.fields) = r.fields) ∨
  ∃ r, d = .removed r ∧ S.matching γ q = [r] ∧ ∃ w, back r.fields = some w ∧ w.fresh = r.fields

omit [DecidableEq U] in
theorem eq_of_matching {p : Row U Γ Φ} (hp : p ∈ S.matching γ q) (h : S.matching γ q = [r]) : p = r :=
  List.mem_singleton.mp (h ▸ hp)

theorem matching_removed_eq_nil (hr : r ∈ S.rows) (ht : r.table = γ) :
    (S.after ν γ (.removed r)).matching γ q = [] ↔ ∀ r' ∈ S.matching γ q, r' = r := by
  rw [List.eq_nil_iff_forall_not_mem]
  constructor
  · intro h r' hr'
    by_contra hne
    obtain ⟨hmem, hrest⟩ := mem_matching.mp hr'
    exact h r' (mem_matching.mpr ⟨(mem_removed_row hr ht).mpr ⟨hmem, hne⟩, hrest⟩)
  · intro h r' hr'
    obtain ⟨hmem, hrest⟩ := mem_matching.mp hr'
    obtain ⟨hmem, hne⟩ := (mem_removed_row hr ht).mp hmem
    exact hne (h r' (mem_matching.mpr ⟨hmem, hrest⟩))

theorem matching_wrote (hS : S.matching γ q = [r]) (hq : q (f r.fields) = true) :
    (S.after ν γ (.wrote r f)).matching γ q = [{ r with fields := f r.fields }] := by
  obtain ⟨hr, ht, -⟩ := mem_of_matching hS
  refine matching_eq_singleton.mpr ⟨mem_matching.mpr ⟨(mem_wrote hr ht).mpr (.inr rfl), ht, hq⟩, ?_⟩
  intro r' hr'
  obtain ⟨hmem, hrest⟩ := mem_matching.mp hr'
  rcases (mem_wrote hr ht).mp hmem with ⟨hold, hne⟩ | h
  · exact absurd (eq_of_matching (mem_matching.mpr ⟨hold, hrest⟩) hS) hne
  · exact h

/-- Where the only row found after the write is the written one, it was the only
one before, as some row was found then. -/
theorem matching_of_wrote {p r' : Row U Γ Φ} (hp : p ∈ S.matching γ q) (hr : r ∈ S.rows)
    (ht : r.table = γ) (hm : (S.after ν γ (.wrote r f)).matching γ q = [r'])
    (hu : r'.uuid = r.uuid) :
    r' = { r with fields := f r.fields } ∧ S.matching γ q = [r] ∧ q (f r.fields) = true := by
  obtain ⟨hmem, ht', hq'⟩ := mem_of_matching hm
  have hr' : r' = { r with fields := f r.fields } := by
    rcases (mem_wrote hr ht).mp hmem with ⟨hold, hne⟩ | h
    · exact absurd (row_unique hold hr hu) hne
    · exact h
  have hall : ∀ r₀ ∈ S.matching γ q, r₀ = r := by
    intro r₀ h₀
    by_contra hne
    obtain ⟨hold, hrest⟩ := mem_matching.mp h₀
    have hfound := mem_matching.mpr ⟨(mem_wrote (ν := ν) (f := f) hr ht).mpr (.inl ⟨hold, hne⟩), hrest⟩
    have heq : r₀ = r' := eq_of_matching hfound hm
    exact hne (row_unique hold hr (heq ▸ hu))
  refine ⟨hr', matching_eq_singleton.mpr ⟨hall p hp ▸ hp, hall⟩, ?_⟩
  rw [hr'] at hq'
  exact hq'

omit [DecidableEq U] in
theorem placing_cases (T : RowStore U Γ Φ) (way : Way) (γ : Γ) (q : Φ → Bool) (w : Rewrite Φ) :
    (T.matching γ q = [] ∧
      T.placing way γ q w = if way = .update then .nothing else .added w.fresh) ∨
    (∃ r, T.matching γ q = [r] ∧
      T.placing way γ q w = if way = .insert then .nothing else .wrote r w.onto) ∨
    (2 ≤ (T.matching γ q).length ∧ T.placing way γ q w = .nothing) := by
  rcases h : T.matching γ q with - | ⟨r, - | ⟨r', rs⟩⟩
  · exact .inl ⟨rfl, by simp [placing, h]⟩
  · exact .inr (.inl ⟨r, rfl, by simp [placing, h]⟩)
  · exact .inr (.inr ⟨by simp, by simp [placing, h]⟩)

variable {p : Row U Γ Φ} {way : Way} {w : Rewrite Φ} {back : Φ → Option (Rewrite Φ)}

omit [DecidableEq U] in
theorem placing_insert (hp : p ∈ S.matching γ q) : S.placing .insert γ q w = .nothing := by
  rcases placing_cases S .insert γ q w with ⟨hm, -⟩ | ⟨r, -, hw⟩ | ⟨-, hw⟩
  · rw [hm] at hp
    cases hp
  · exact hw
  · exact hw

theorem restores_placing_of_idle (hp : p ∈ S.matching γ q)
    (hinsert : way = .insert → w.onto p.fields = p.fields) :
    S.Restores (S.after ν γ (S.placing way γ q w)) ↔
      (S.matching γ q = [p] → w.onto p.fields = p.fields) := by
  rcases placing_cases S way γ q w with ⟨hm, -⟩ | ⟨r, hm, hw⟩ | ⟨hm, hw⟩
  · rw [hm] at hp
    cases hp
  · obtain rfl := eq_of_matching hp hm
    rw [hw, imp_iff_right hm]
    split
    · rename_i h
      exact iff_of_true (.refl S) (hinsert h)
    · obtain ⟨hr, ht, -⟩ := mem_of_matching hm
      exact restores_iff_idle (holds_wrote hr ht)
  · rw [hw]
    refine iff_of_true (.refl S) fun h => ?_
    rw [h] at hm
    exact absurd hm (by simp)

theorem length_placing (T : RowStore U Γ Φ) (way : Way) (w : Rewrite Φ) :
    T.rows.length ≤ (T.after ν γ (T.placing way γ q w)).rows.length := by
  rcases placing_cases T way γ q w with ⟨-, hw⟩ | ⟨r, -, hw⟩ | ⟨-, hw⟩
  · rw [hw]
    split
    · exact le_rfl
    · rw [length_added]
      exact Nat.le_succ _
  · rw [hw]
    split
    · exact le_rfl
    · rw [length_wrote]
  · rw [hw]
    exact le_rfl

theorem restores_placing_of_wrote (hp : p ∈ S.matching γ q) (hr : r ∈ S.rows) (ht : r.table = γ)
    (hne : f r.fields ≠ r.fields) (hway : way ≠ .insert) :
    S.Restores ((S.after ν γ (.wrote r f)).after ν γ
        ((S.after ν γ (.wrote r f)).placing way γ q w)) ↔
      S.matching γ q = [r] ∧ q (f r.fields) = true ∧ w.onto (f r.fields) = r.fields := by
  have hnot : ¬ S.Restores (S.after ν γ (.wrote r f)) := fun h =>
    hne ((restores_iff_idle (holds_wrote hr ht)).mp h)
  -- the search finds the changed row alone if it found it alone before
  have hfound : S.matching γ q = [r] ∧ q (f r.fields) = true →
      (S.after ν γ (.wrote r f)).matching γ q = [{ r with fields := f r.fields }] :=
    fun h => matching_wrote h.1 h.2
  rcases placing_cases (S.after ν γ (.wrote r f)) way γ q w with ⟨hm, hw⟩ | ⟨r', hm, hw⟩ | ⟨hm, hw⟩
  · refine iff_of_false (fun h => ?_) fun h => ?_
    · rw [hw] at h
      split at h
      · exact hnot h
      · have hlen := h.length_eq
        rw [length_added, length_wrote] at hlen
        omega
    · rw [hfound ⟨h.1, h.2.1⟩] at hm
      cases hm
  · obtain ⟨hmem, ht', -⟩ := mem_of_matching hm
    rw [hw, if_neg hway]
    by_cases hu : r'.uuid = r.uuid
    · -- the two writes are one write of the row
      obtain ⟨rfl, hS, hq⟩ := matching_of_wrote hp hr ht hm hu
      rw [after_wrote_wrote, restores_iff_idle (holds_wrote hr ht),
        and_iff_right hS, and_iff_right hq]
      rfl
    · -- another row is written, and the changed one stays changed
      refine iff_of_false (fun h => ?_) fun h => ?_
      · have hkeep := (mem_wrote (ν := ν) (f := f) hr ht).mpr (.inr rfl)
        refine hne (h.fields_eq hr ((mem_wrote hmem ht').mpr (.inl ⟨hkeep, fun heq => hu ?_⟩)))
        rw [← heq]
      · rw [hfound ⟨h.1, h.2.1⟩] at hm
        exact hu (congrArg Row.uuid (List.singleton_inj.mp hm)).symm
  · rw [hw]
    refine iff_of_false hnot fun h => ?_
    rw [hfound ⟨h.1, h.2.1⟩] at hm
    exact absurd hm (by simp)

theorem restores_placing_of_removed (hp : p ∈ S.matching γ q) (hr : r ∈ S.rows) (ht : r.table = γ)
    (hway : way ≠ .update) :
    S.Restores ((S.after ν γ (.removed r)).after ν γ
        ((S.after ν γ (.removed r)).placing way γ q w)) ↔
      S.matching γ q = [r] ∧ w.fresh = r.fields := by
  have hless := length_removed (ν := ν) hr ht
  have hnil := matching_removed_eq_nil (ν := ν) (q := q) hr ht
  have hone : S.matching γ q = [r] → (S.after ν γ (.removed r)).matching γ q = [] := fun h =>
    hnil.mpr fun r' hr' => eq_of_matching hr' h
  rcases placing_cases (S.after ν γ (.removed r)) way γ q w with ⟨hm, hw⟩ | ⟨r', hm, hw⟩ | ⟨hm, hw⟩
  · have hall := hnil.mp hm
    have hS : S.matching γ q = [r] := matching_eq_singleton.mpr ⟨hall p hp ▸ hp, hall⟩
    rw [hw, if_neg hway, restores_removed_added hr ht, and_iff_right hS]
  · refine iff_of_false (fun h => ?_) fun h => ?_
    · rw [hw] at h
      have hlen := h.length_eq
      split at hlen
      · rw [after_nothing] at hlen
        omega
      · rw [length_wrote] at hlen
        omega
    · rw [hone h.1] at hm
      cases hm
  · refine iff_of_false (fun h => ?_) fun h => ?_
    · rw [hw, after_nothing] at h
      have hlen := h.length_eq
      omega
    · rw [hone h.1] at hm
      exact absurd hm (by simp)

omit [DecidableEq U] in
theorem writingUndoes_of_idle (hp : p ∈ S.matching γ q) (hidle : d.Idle) :
    S.WritingUndoes γ q back d ↔
      (S.matching γ q = [p] → ∀ w, back p.fields = some w → w.onto p.fields = p.fields) := by
  constructor
  · rintro (⟨-, h⟩ | ⟨r, f, rfl, hS, -, w, hw, hover⟩ | ⟨r, rfl, -⟩)
    · exact h p
    · intro _ w' hw'
      obtain rfl := eq_of_matching hp hS
      obtain rfl := Option.some.inj (hw.symm.trans hw')
      rw [show f p.fields = p.fields from hidle] at hover
      exact hover
    · cases hidle
  · refine fun h => .inl ⟨hidle, fun r hr => ?_⟩
    obtain rfl := eq_of_matching hp hr
    exact h hr

/-- **Writing a record back takes a deed back exactly as `WritingUndoes` says.**
A record that is only updated cannot take a removal back, and one that is only
inserted neither a write nor an unfaithful record. -/
theorem restores_placing (hp : p ∈ S.matching γ q) (hd : S.Holds γ d)
    (hupdate : way = .update → ∀ r, d ≠ .removed r)
    (hinsert : way = .insert → (∀ r f, d ≠ .wrote r f) ∧
      ∀ w, back p.fields = some w → w.onto p.fields = p.fields) :
    S.Restores ((S.after ν γ d).after ν γ
        ((back p.fields).elim .nothing ((S.after ν γ d).placing way γ q))) ↔
      S.WritingUndoes γ q back d := by
  by_cases hidle : d.Idle
  · -- the record is written over the row that it was saved from
    rw [after_idle hidle hd, writingUndoes_of_idle hp hidle]
    cases hb : back p.fields with
    | none => exact iff_of_true (.refl S) fun _ _ h => by cases h
    | some w =>
      have hback : (∀ w', some w = some w' → w'.onto p.fields = p.fields) ↔
          w.onto p.fields = p.fields := by simp
      rw [Option.elim_some, restores_placing_of_idle hp fun h => (hinsert h).2 w hb, hback]
  rw [WritingUndoes, or_iff_right fun h => hidle h.1]
  cases hb : back p.fields with
  | none =>
    rw [Option.elim_none, after_nothing, restores_iff_idle hd]
    refine iff_of_false hidle ?_
    rintro (⟨r, f, -, hS, -, w, hw, -⟩ | ⟨r, -, hS, w, hw, -⟩) <;>
    · obtain rfl := eq_of_matching hp hS
      cases hb.symm.trans hw
  | some w =>
    rw [Option.elim_some]
    cases d with
    | nothing => exact absurd trivial hidle
    | added φ =>
      -- a record that is written back removes no row
      refine iff_of_false (fun h => ?_) ?_
      · have hlen := length_placing (ν := ν) (γ := γ) (q := q) (S.after ν γ (.added φ)) way w
        rw [h.length_eq, length_added] at hlen
        omega
      · rintro (⟨r, f, h, -⟩ | ⟨r, h, -⟩) <;> cases h
    | wrote r f =>
      obtain ⟨hr, ht⟩ := hd r rfl
      have hway : way ≠ .insert := fun h => (hinsert h).1 r f rfl
      rw [restores_placing_of_wrote hp hr ht hidle hway]
      constructor
      · rintro ⟨hS, hq, hover⟩
        obtain rfl := eq_of_matching hp hS
        exact .inl ⟨p, f, rfl, hS, hq, w, hb, hover⟩
      · rintro (⟨r', f', h, hS, hq, w', hw', hover⟩ | ⟨r', h, -⟩)
        · obtain ⟨rfl, rfl⟩ := Deed.wrote.inj h
          obtain rfl := eq_of_matching hp hS
          obtain rfl := Option.some.inj (hb.symm.trans hw')
          exact ⟨hS, hq, hover⟩
        · cases h
    | removed r =>
      obtain ⟨hr, ht⟩ := hd r rfl
      have hway : way ≠ .update := fun h => hupdate h r rfl
      rw [restores_placing_of_removed hp hr ht hway]
      constructor
      · rintro ⟨hS, hfresh⟩
        obtain rfl := eq_of_matching hp hS
        exact .inr ⟨p, rfl, hS, w, hb, hfresh⟩
      · rintro (⟨r', f', h, -⟩ | ⟨r', h, hS, w', hw', hfresh⟩)
        · cases h
        · obtain rfl := Deed.removed.inj h
          obtain rfl := eq_of_matching hp hS
          obtain rfl := Option.some.inj (hb.symm.trans hw')
          exact ⟨hS, hfresh⟩

end After

end RowStore
