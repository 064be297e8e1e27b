/-
Opngms/Floors.lean

The greatest of some elements whose key is at most a bound.

Elements are compared by a key in a linear order, and several elements may have one key.  A
floor of a bound is an element of greatest key among those that do not exceed it
(`IsFloor`); the element before a bound is one of greatest key strictly below (`IsBelow`).
Which of several elements is taken plays no part in the order: a higher bound never has a
lower floor (`IsFloor.mono`).
-/
import Mathlib.Data.List.Basic
import Mathlib.Order.Lattice

namespace Floors

variable {α β κ : Type} [LinearOrder κ] (key : α → κ)

/-- An element of greatest key among those at most `t`. -/
structure IsFloor (xs : List α) (t : κ) (u : α) : Prop where
  mem : u ∈ xs
  le : key u ≤ t
  greatest : ∀ v ∈ xs, key v ≤ t → key v ≤ key u

/-- An element of greatest key among those below `t`. -/
structure IsBelow (xs : List α) (t : κ) (u : α) : Prop where
  mem : u ∈ xs
  lt : key u < t
  greatest : ∀ v ∈ xs, key v < t → key v ≤ key u

variable {key} {xs : List α} {t t' : κ} {u u' : α}

theorem isFloor_self (h : u ∈ xs) : IsFloor key xs (key u) u := ⟨h, le_refl _, fun _ _ h => h⟩

theorem IsFloor.mono (h : IsFloor key xs t u) (h' : IsFloor key xs t' u') (ht : t ≤ t') :
    key u ≤ key u' :=
  h'.greatest u h.mem (h.le.trans ht)

theorem IsBelow.none_between (h : IsBelow key xs t u) {v : α} (hv : v ∈ xs) :
    ¬ (key u < key v ∧ key v < t) := by
  rintro ⟨hlt, hbound⟩
  exact absurd (h.greatest v hv hbound) (not_le.mpr hlt)

end Floors
