/-
Opngms/Upserts.lean

Upserts by name: a record is written over the one row that carries a name, or added where no
row carries it.

Where at most one row carries the name, and what is written carries it, one row carries it
afterwards (`matching_upserted`) and the others are the same rows (`others_upserted`).  Where
what is written twice is written once, a second upsert leaves the store (`upserted_again`).
-/
import Opngms.KeyedEdits

variable {U Γ Φ : Type}

/-- What is written for a name carries it: over a row that does, and as a new row. -/
structure Rewrite.Carries (w : Rewrite Φ) (q : Φ → Bool) : Prop where
  fresh : q w.fresh = true
  onto : ∀ φ, q φ = true → q (w.onto φ) = true

/-- What is written twice is written once. -/
structure Rewrite.Settles (w : Rewrite Φ) : Prop where
  fresh : w.onto w.fresh = w.fresh
  onto : ∀ φ, w.onto (w.onto φ) = w.onto φ

namespace RowStore

variable [DecidableEq Γ] {S : RowStore U Γ Φ} {γ : Γ} {q : Φ → Bool} {r : Row U Γ Φ} {w : Rewrite Φ}

def others (S : RowStore U Γ Φ) (γ : Γ) (q : Φ → Bool) : List (Row U Γ Φ) :=
  S.rows.filter fun r => !(decide (r.table = γ) && q r.fields)

theorem matching_le_one (h : (S.matching γ q).length ≤ 1) :
    S.matching γ q = [] ∨ ∃ r, S.matching γ q = [r] := by
  rcases hm : S.matching γ q with - | ⟨r, - | ⟨r', rs⟩⟩
  · exact .inl rfl
  · exact .inr ⟨r, rfl⟩
  · rw [hm] at h
    simp at h

variable [DecidableEq U]

def upserted (ν : Supply U) (S : RowStore U Γ Φ) (γ : Γ) (q : Φ → Bool) (w : Rewrite Φ) :
    RowStore U Γ Φ :=
  S.after ν γ (S.placing .upsert γ q w)

variable {ν : Supply U}

theorem upserted_of_nil (h : S.matching γ q = []) :
    S.upserted ν γ q w = S.after ν γ (.added w.fresh) := by
  rw [upserted, placing, h]
  rfl

theorem upserted_of_singleton (h : S.matching γ q = [r]) :
    S.upserted ν γ q w = S.after ν γ (.wrote r w.onto) := by
  rw [upserted, placing, h]
  rfl

def written (S : RowStore U Γ Φ) (γ : Γ) (q : Φ → Bool) (w : Rewrite Φ) : Φ :=
  match S.matching γ q with
  | [] => w.fresh
  | r :: _ => w.onto r.fields

/-- The uuid an upsert leaves under the name. -/
def carrier (ν : Supply U) (S : RowStore U Γ Φ) (γ : Γ) (q : Φ → Bool) : U :=
  match S.matching γ q with
  | [] => ν.pick S.issued
  | r :: _ => r.uuid

/-- **After an upsert one row carries the name.** -/
theorem matching_upserted (hone : (S.matching γ q).length ≤ 1) (hw : w.Carries q) :
    (S.upserted ν γ q w).matching γ q = [⟨S.carrier ν γ q, γ, S.written γ q w⟩] := by
  rcases matching_le_one hone with hm | ⟨r, hm⟩
  · rw [upserted_of_nil hm, matching_added, hm, if_pos hw.fresh, written, carrier, hm]
    rfl
  · obtain ⟨-, ht, hq⟩ := mem_of_matching hm
    rw [upserted_of_singleton hm, matching_wrote hm (hw.onto _ hq), written, carrier, hm, ht]

theorem others_upserted (hone : (S.matching γ q).length ≤ 1) (hw : w.Carries q) :
    (S.upserted ν γ q w).others γ q = S.others γ q := by
  rcases matching_le_one hone with hm | ⟨r, hm⟩
  · rw [upserted_of_nil hm]
    show (S.rows ++ [_]).filter _ = _
    rw [List.filter_append, others]
    simp [hw.fresh]
  · obtain ⟨hr, ht, hq⟩ := mem_of_matching hm
    rw [upserted_of_singleton hm]
    show (S.rows.map (Edit.set γ r.uuid w.onto).patch).filter _ = _
    -- the one row that is written carries the name before and after
    have hpatch : ∀ r' ∈ S.rows, r' = r ∨ (Edit.set γ r.uuid w.onto).patch r' = r' := by
      intro r' hr'
      by_cases his : r'.is γ r.uuid = true
      · exact .inl (is_eq hr hr' his)
      · exact .inr (if_neg his)
    have hself : (Edit.set γ r.uuid w.onto).patch r = { r with fields := w.onto r.fields } :=
      if_pos (is_self ht)
    rw [List.filter_map, others]
    have hsame : S.rows.filter ((fun r' => !(decide (r'.table = γ) && q r'.fields)) ∘
        (Edit.set γ r.uuid w.onto).patch) = S.others γ q := by
      refine List.filter_congr fun r' hr' => ?_
      rcases hpatch r' hr' with rfl | heq
      · rw [Function.comp_apply, hself]
        simp [ht, hq, hw.onto _ hq]
      · rw [Function.comp_apply, heq]
    rw [hsame]
    refine (List.map_congr_left fun r' hr' => ?_).trans (List.map_id _)
    obtain ⟨hmem, hnot⟩ := List.mem_filter.mp hr'
    rcases hpatch r' hmem with rfl | heq
    · simp [ht, hq] at hnot
    · exact heq

/-- **A second upsert leaves the store.** -/
theorem upserted_again (hone : (S.matching γ q).length ≤ 1) (hw : w.Carries q)
    (hsettles : w.Settles) :
    (S.upserted ν γ q w).upserted ν γ q w = S.upserted ν γ q w := by
  have hm := matching_upserted (ν := ν) hone hw
  obtain ⟨hr, ht, -⟩ := mem_of_matching hm
  rw [upserted_of_singleton hm]
  refine after_idle ?_ (holds_wrote hr ht)
  show w.onto (S.written γ q w) = S.written γ q w
  rw [written]
  cases S.matching γ q with
  | nil => exact hsettles.fresh
  | cons r rs => exact hsettles.onto r.fields

theorem carrier_upserted (hone : (S.matching γ q).length ≤ 1) (hw : w.Carries q) :
    (S.upserted ν γ q w).carrier ν γ q = S.carrier ν γ q := by
  rw [carrier, matching_upserted hone hw]

end RowStore
