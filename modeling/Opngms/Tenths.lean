/-
Opngms/Tenths.lean

Rounding to the nearest tenth, and half-way between two tenths to the even one.

A number below the middle of two tenths is rounded to the lower one or less
(`round1_le`), a number above it to the upper one or more (`le_round1`).  So however
large `n` is, percentages of `n` and of `n + 1` come apart (**`exists_round1_ne`**):
near 100 percent there is a middle between the two.
-/
import Mathlib.Data.Rat.Floor
import Mathlib.Tactic.Linarith

namespace Tenths

/-- `round(x, 1)`. -/
def round1 (x : ℚ) : ℚ :=
  let m := ⌊10 * x⌋
  let rest := 10 * x - m
  (if rest < 1 / 2 then (m : ℚ) else if 1 / 2 < rest then m + 1
    else if m % 2 = 0 then m else m + 1) / 10

theorem round1_le {x : ℚ} {m : ℤ} (h : 10 * x < m + 1 / 2) : round1 x ≤ m / 10 := by
  have hfloor := Int.floor_le (10 * x)
  unfold round1
  dsimp only
  apply div_le_div_of_nonneg_right _ (by norm_num)
  rcases lt_or_ge ⌊10 * x⌋ m with hlt | hge
  · have hle : (⌊10 * x⌋ : ℚ) + 1 ≤ m := by exact_mod_cast hlt
    split_ifs <;> linarith
  · have hge' : (m : ℚ) ≤ ⌊10 * x⌋ := by exact_mod_cast hge
    have hsmall : 10 * x - ⌊10 * x⌋ < 1 / 2 := by linarith
    have hle : ⌊10 * x⌋ ≤ m := by
      apply Int.lt_add_one_iff.mp
      apply Int.floor_lt.mpr
      push_cast
      linarith
    rw [if_pos hsmall]
    exact_mod_cast hle

theorem le_round1 {x : ℚ} {m : ℤ} (h : m - 1 / 2 < 10 * x) : m / 10 ≤ round1 x := by
  have hfloor := Int.lt_floor_add_one (10 * x)
  unfold round1
  dsimp only
  apply div_le_div_of_nonneg_right _ (by norm_num)
  rcases lt_or_ge ⌊10 * x⌋ m with hlt | hge
  · have hle : m ≤ ⌊10 * x⌋ + 1 := by
      have hcast : (m : ℚ) < (⌊10 * x⌋ + 2 : ℤ) := by
        push_cast
        linarith
      have hint : m < ⌊10 * x⌋ + 2 := by exact_mod_cast hcast
      omega
    have heq : m = ⌊10 * x⌋ + 1 := by omega
    have heq' : (m : ℚ) = ⌊10 * x⌋ + 1 := by exact_mod_cast heq
    have hlarge : 1 / 2 < 10 * x - ⌊10 * x⌋ := by linarith
    rw [if_neg (not_lt.mpr hlarge.le), if_pos hlarge]
    exact heq'.le
  · have hge' : (m : ℚ) ≤ ⌊10 * x⌋ := by exact_mod_cast hge
    split_ifs <;> linarith

theorem round1_tie {x : ℚ} {m : ℤ} (h : 10 * x = m + 1 / 2) :
    round1 x = (if m % 2 = 0 then (m : ℚ) else m + 1) / 10 := by
  have hfloor : ⌊10 * x⌋ = m := by
    rw [Int.floor_eq_iff, h]
    constructor <;> linarith
  unfold round1
  dsimp only
  have hrest : 10 * x - ⌊10 * x⌋ = 1 / 2 := by
    rw [hfloor, h]
    ring
  rw [hrest, if_neg (lt_irrefl _), if_neg (lt_irrefl _), hfloor]

theorem round1_lt_of_middle {x y : ℚ} {m : ℤ}
    (hx : 10 * x < m + 1 / 2 ∨ 10 * x = m + 1 / 2 ∧ m % 2 = 0)
    (hy : m + 1 / 2 < 10 * y ∨ 10 * y = m + 1 / 2 ∧ m % 2 ≠ 0) : round1 x < round1 y := by
  have hlow : round1 x ≤ m / 10 := by
    rcases hx with hlt | ⟨htie, heven⟩
    · exact round1_le hlt
    · rw [round1_tie htie, if_pos heven]
  have hhigh : (m + 1 : ℚ) / 10 ≤ round1 y := by
    rcases hy with hlt | ⟨htie, hodd⟩
    · have hnext : ((m + 1 : ℤ) : ℚ) - 1 / 2 < 10 * y := by
        push_cast
        linarith
      have hround := le_round1 hnext
      push_cast at hround
      exact hround
    · rw [round1_tie htie, if_neg hodd]
  linarith

/-- **A percentage of `n` differs from one of `n + 1`**, for some share, after
rounding as well. -/
theorem exists_round1_ne (n : Nat) (hn : 1 ≤ n) :
    ∃ k ≤ n, round1 ((k : ℚ) / (n + 1 : Nat) * 100) ≠ round1 ((k : ℚ) / n * 100) := by
  have hpos : (0 : ℚ) < n := by exact_mod_cast hn
  have hpos' : (0 : ℚ) < (n + 1 : Nat) := by exact_mod_cast Nat.succ_pos n
  by_cases hmod : n % 2000 = 1999
  · -- 99.85 % of `n + 1` is rounded down, and the same share of `n` is more
    have hk : 2000 * (1997 * ((n + 1) / 2000)) = 1997 * (n + 1) := by omega
    have hk' : 1997 * n < 2000 * (1997 * ((n + 1) / 2000)) := by omega
    have hle : 1997 * ((n + 1) / 2000) ≤ n := by omega
    generalize 1997 * ((n + 1) / 2000) = k at hk hk' hle
    have hkq : 2000 * (k : ℚ) = 1997 * (n + 1 : Nat) := by exact_mod_cast hk
    have hkq' : 1997 * (n : ℚ) < 2000 * k := by exact_mod_cast hk'
    have htie : (k : ℚ) / (n + 1 : Nat) = 1997 / 2000 := by
      rw [div_eq_div_iff hpos'.ne' (by norm_num)]
      linarith
    have hmore : 1997 / 2000 < (k : ℚ) / n := by
      rw [div_lt_div_iff₀ (by norm_num) hpos]
      linarith
    refine ⟨k, hle, (round1_lt_of_middle (m := 998) (.inr ⟨?_, rfl⟩) (.inl ?_)).ne⟩
    · rw [htie]
      norm_num
    · push_cast
      linarith
  · -- 99.95 % of `n` is rounded up, and the same share of `n + 1` is less
    have hk : 1999 * n ≤ 2000 * (n - n / 2000) := by omega
    have hk' : 2000 * (n - n / 2000) < 1999 * (n + 1) := by omega
    have hle : n - n / 2000 ≤ n := Nat.sub_le _ _
    generalize n - n / 2000 = k at hk hk' hle
    have hkq : 1999 * (n : ℚ) ≤ 2000 * k := by exact_mod_cast hk
    have hkq' : 2000 * (k : ℚ) < 1999 * (n + 1 : Nat) := by exact_mod_cast hk'
    have hless : (k : ℚ) / (n + 1 : Nat) < 1999 / 2000 := by
      rw [div_lt_div_iff₀ hpos' (by norm_num)]
      linarith
    have hmore : 1999 / 2000 ≤ (k : ℚ) / n := by
      rw [div_le_div_iff₀ (by norm_num) hpos]
      linarith
    have hmiddle : ((999 : ℤ) : ℚ) + 1 / 2 = 10 * (1999 / 2000 * 100) := by norm_num
    refine ⟨k, hle, (round1_lt_of_middle (m := 999) (.inl ?_) ?_).ne⟩
    · rw [hmiddle]
      linarith
    · rcases hmore.lt_or_eq with hlt | heq
      · refine .inl ?_
        rw [hmiddle]
        linarith
      · refine .inr ⟨?_, by decide⟩
        rw [hmiddle, ← heq]

end Tenths
