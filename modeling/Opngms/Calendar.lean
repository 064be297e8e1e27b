/-
Opngms/Calendar.lean

Days, weekdays and months of the Gregorian calendar, extended to all years.

A `Division` of the days is given by the starts of its periods, each at least
`gap` days after the one before; `indexOf` is the period of a day, and
`indexOf_eq_iff` says which one that is.  The months are such a division, with
January of year 1 as month 0, and its first day, a Monday, as day 0.

Times are counted in microseconds from the start of day 0.
-/
import Mathlib.Data.Nat.Find
import Mathlib.Order.Monotone.Basic
import Mathlib.Tactic.IntervalCases

namespace Calendar

/-! ### Divisions of the days -/

/-- Periods without a gap between them, given by their first days. -/
structure Division where
  start : Nat → Nat
  start_zero : start 0 = 0
  gap : Nat
  gap_pos : 0 < gap
  step : ∀ m, start m + gap ≤ start (m + 1)

namespace Division

variable (D : Division)

theorem strictMono : StrictMono D.start := by
  apply strictMono_nat_of_lt_succ
  intro m
  have hstep := D.step m
  have hpos := D.gap_pos
  omega

theorem gap_mul_le (m : Nat) : D.gap * m ≤ D.start m := by
  induction m with
  | zero => simp
  | succ m ih =>
    have hstep := D.step m
    rw [Nat.mul_succ]
    omega

def indexOf (day : Nat) : Nat := Nat.findGreatest (fun m => D.start m ≤ day) (day / D.gap)

theorem start_indexOf_le (day : Nat) : D.start (D.indexOf day) ≤ day := by
  have hzero : D.start 0 ≤ day := by
    rw [D.start_zero]
    exact Nat.zero_le day
  exact Nat.findGreatest_spec (P := fun m => D.start m ≤ day) (Nat.zero_le _) hzero

theorem lt_start_succ_indexOf (day : Nat) : day < D.start (D.indexOf day + 1) := by
  by_contra hle
  have hbound : D.indexOf day + 1 ≤ day / D.gap := by
    apply (Nat.le_div_iff_mul_le D.gap_pos).mpr
    have hmul := D.gap_mul_le (D.indexOf day + 1)
    rw [Nat.mul_comm] at hmul
    exact hmul.trans (Nat.not_lt.mp hle)
  have hgreatest : D.indexOf day + 1 ≤ D.indexOf day :=
    Nat.le_findGreatest (P := fun m => D.start m ≤ day) hbound (Nat.not_lt.mp hle)
  omega

/-- **The period of a day is the one it lies in.** -/
theorem indexOf_eq_iff {day m : Nat} :
    D.indexOf day = m ↔ D.start m ≤ day ∧ day < D.start (m + 1) := by
  constructor
  · rintro rfl
    exact ⟨D.start_indexOf_le day, D.lt_start_succ_indexOf day⟩
  · rintro ⟨hle, hlt⟩
    have hstart := D.start_indexOf_le day
    have hnext := D.lt_start_succ_indexOf day
    rcases Nat.lt_trichotomy (D.indexOf day) m with hless | heq | hmore
    · have hmono := D.strictMono.monotone (Nat.succ_le_of_lt hless)
      exact absurd (hmono.trans hle) (Nat.not_le.mpr hnext)
    · exact heq
    · have hmono := D.strictMono.monotone (Nat.succ_le_of_lt hmore)
      exact absurd (hmono.trans hstart) (Nat.not_le.mpr hlt)

theorem indexOf_mono : Monotone D.indexOf := by
  intro d d' h
  by_contra hlt
  have hstart := D.strictMono.monotone (Nat.succ_le_of_lt (Nat.not_le.mp hlt))
  have hle := D.start_indexOf_le d
  have hnext := D.lt_start_succ_indexOf d'
  dsimp only [Nat.succ_eq_add_one] at hstart
  omega

theorem indexOf_start (m : Nat) : D.indexOf (D.start m) = m :=
  D.indexOf_eq_iff.mpr ⟨le_rfl, D.strictMono (Nat.lt_succ_self m)⟩

end Division

/-! ### Months -/

/-- The months before the month `month` (from 1) of a year. -/
def monthIndex (year month : Nat) : Nat := (year - 1) * 12 + (month - 1)

def yearOf (m : Nat) : Nat := m / 12 + 1

def monthOf (m : Nat) : Nat := m % 12 + 1

/-- The month after `m`: in December, January of the next year. -/
def monthAfter (m : Nat) : Nat :=
  if monthOf m = 12 then monthIndex (yearOf m + 1) 1 else monthIndex (yearOf m) (monthOf m + 1)

/-- The month before `m`: in January, December of the year before. -/
def monthBefore (m : Nat) : Nat :=
  if monthOf m = 1 then monthIndex (yearOf m - 1) 12 else monthIndex (yearOf m) (monthOf m - 1)

theorem monthAfter_eq (m : Nat) : monthAfter m = m + 1 := by
  unfold monthAfter monthIndex yearOf monthOf
  split_ifs <;> omega

theorem monthBefore_succ (m : Nat) : monthBefore (m + 1) = m := by
  unfold monthBefore monthIndex yearOf monthOf
  split_ifs <;> omega

def isLeap (year : Nat) : Prop := year % 4 = 0 ∧ (year % 100 ≠ 0 ∨ year % 400 = 0)

instance (year : Nat) : Decidable (isLeap year) :=
  inferInstanceAs (Decidable (_ ∧ (_ ∨ _)))

/-- The days before the first of January of year `y + 1`. -/
def daysBeforeYear (y : Nat) : Nat := y * 365 + y / 4 - y / 100 + y / 400

/-- The days before each month, in a year that is no leap year. -/
def daysBeforeMonth : Nat → Nat
  | 1 => 0
  | 2 => 31
  | 3 => 59
  | 4 => 90
  | 5 => 120
  | 6 => 151
  | 7 => 181
  | 8 => 212
  | 9 => 243
  | 10 => 273
  | 11 => 304
  | _ => 334

def monthStart (m : Nat) : Nat :=
  daysBeforeYear (m / 12) + daysBeforeMonth (monthOf m) +
    if 2 < monthOf m ∧ isLeap (yearOf m) then 1 else 0

theorem daysBeforeYear_succ (y : Nat) :
    daysBeforeYear (y + 1) = daysBeforeYear y + 365 + if isLeap (y + 1) then 1 else 0 := by
  have h4 : (y + 1) / 4 = y / 4 + if (y + 1) % 4 = 0 then 1 else 0 := by split_ifs <;> omega
  have h100 : (y + 1) / 100 = y / 100 + if (y + 1) % 100 = 0 then 1 else 0 := by
    split_ifs <;> omega
  have h400 : (y + 1) / 400 = y / 400 + if (y + 1) % 400 = 0 then 1 else 0 := by
    split_ifs <;> omega
  have hle : y / 100 ≤ y / 4 := by omega
  have h : (y + 1) % 100 = 0 → (y + 1) % 4 = 0 := by omega
  have h' : (y + 1) % 400 = 0 → (y + 1) % 100 = 0 := by omega
  unfold daysBeforeYear
  rw [h4, h100, h400, Nat.add_mul]
  -- whether the year is a leap year depends on the three remainders only
  by_cases hr : (y + 1) % 4 = 0
  · by_cases hs : (y + 1) % 100 = 0
    · by_cases ht : (y + 1) % 400 = 0
      · have hleap : isLeap (y + 1) := ⟨hr, .inr ht⟩
        rw [if_pos hr, if_pos hs, if_pos ht, if_pos hleap]
        clear * - hle
        omega
      · have hleap : ¬ isLeap (y + 1) := fun hleap => hleap.2.elim (fun hne => hne hs) ht
        rw [if_pos hr, if_pos hs, if_neg ht, if_neg hleap]
        clear * - hle
        omega
    · have ht : ¬ (y + 1) % 400 = 0 := fun ht => hs (h' ht)
      have hleap : isLeap (y + 1) := ⟨hr, .inl hs⟩
      rw [if_pos hr, if_neg hs, if_neg ht, if_pos hleap]
      clear * - hle
      omega
  · have hs : ¬ (y + 1) % 100 = 0 := fun hs => hr (h hs)
    have ht : ¬ (y + 1) % 400 = 0 := fun ht => hs (h' ht)
    have hleap : ¬ isLeap (y + 1) := fun hleap => hr hleap.1
    rw [if_neg hr, if_neg hs, if_neg ht, if_neg hleap]
    clear * - hle
    omega

theorem monthStart_succ (m : Nat) :
    monthStart m + 28 ≤ monthStart (m + 1) ∧ monthStart (m + 1) ≤ monthStart m + 31 := by
  have hyear := daysBeforeYear_succ (m / 12)
  unfold monthStart monthOf yearOf
  by_cases hdec : m % 12 = 11
  · -- from December to January of the next year
    have hdiv : (m + 1) / 12 = m / 12 + 1 := by omega
    have hmod : (m + 1) % 12 = 0 := by omega
    rw [hdiv, hmod, hdec, hyear]
    by_cases hleap : isLeap (m / 12 + 1)
    · simp [daysBeforeMonth, hleap]
    · simp [daysBeforeMonth, hleap]
  · have hdiv : (m + 1) / 12 = m / 12 := by omega
    have hmod : (m + 1) % 12 = m % 12 + 1 := by omega
    rw [hdiv, hmod]
    have hmonth : m % 12 < 11 := by omega
    generalize m % 12 = r at hmonth
    generalize m / 12 = y
    by_cases hleap : isLeap (y + 1)
    · interval_cases r <;> simp [daysBeforeMonth, hleap]
    · interval_cases r <;> simp [daysBeforeMonth, hleap]

def months : Division where
  start := monthStart
  start_zero := rfl
  gap := 28
  gap_pos := by decide
  step m := (monthStart_succ m).1

theorem months_start_succ_le (m : Nat) : months.start (m + 1) ≤ months.start m + 31 :=
  (monthStart_succ m).2

/-! ### Times -/

def dayMicros : Nat := 86400000000

def hourMicros : Nat := 3600000000

def dayOf (t : Nat) : Nat := t / dayMicros

def weekdayOf (day : Nat) : Nat := day % 7

def atHour (day hour : Nat) : Nat := day * dayMicros + hour * hourMicros

theorem dayOf_atHour (day : Nat) {hour : Nat} (h : hour ≤ 23) : dayOf (atHour day hour) = day := by
  unfold dayOf atHour dayMicros hourMicros
  omega

theorem atHour_le_of_lt {day t hour : Nat} (h : hour ≤ 23) (hlt : day < dayOf t) :
    atHour day hour ≤ t := by
  unfold dayOf dayMicros at hlt
  unfold atHour dayMicros hourMicros
  omega

theorem lt_atHour_of_lt {day t : Nat} (hour : Nat) (hlt : dayOf t < day) : t < atHour day hour := by
  unfold dayOf dayMicros at hlt
  unfold atHour dayMicros
  omega

theorem dayOf_mono : Monotone dayOf := fun _ _ h => Nat.div_le_div_right h

theorem atHour_strictMono (hour : Nat) : StrictMono fun day => atHour day hour := by
  intro d d' h
  dsimp only [atHour, dayMicros]
  omega

theorem atHour_add (day days hour : Nat) :
    atHour day hour + days * dayMicros = atHour (day + days) hour := by
  unfold atHour
  rw [Nat.add_mul]
  omega

/-! ### Fire times -/

/-- `n` is the first of an increasing sequence of times that comes after `t`. -/
def IsNext (fires : Nat → Nat) (t n : Nat) : Prop := t < fires n ∧ ∀ k, t < fires k → n ≤ k

theorem IsNext.of_before {fires : Nat → Nat} (hmono : StrictMono fires) {t n : Nat}
    (hlt : t < fires n) (hle : ∀ k, n = k + 1 → fires k ≤ t) : IsNext fires t n := by
  refine ⟨hlt, fun k hk => ?_⟩
  cases n with
  | zero => exact Nat.zero_le k
  | succ n => exact hmono.lt_iff_lt.mp ((hle n rfl).trans_lt hk)

/-- **From one fire time to the next, the next one is the same.** -/
theorem IsNext.eq_succ {fires : Nat → Nat} (hmono : StrictMono fires) {t k n : Nat}
    (h : IsNext fires t n) (hle : fires k ≤ t) (hlt : t < fires (k + 1)) : n = k + 1 := by
  have hupper : n ≤ k + 1 := h.2 (k + 1) hlt
  have hlower : k < n := hmono.lt_iff_lt.mp (hle.trans_lt h.1)
  omega

theorem existsUnique_between {bounds : Nat → Nat} (hmono : Monotone bounds) {n t : Nat}
    (hfirst : bounds 0 ≤ t) (hlast : t < bounds n) :
    ∃! i, i < n ∧ bounds i ≤ t ∧ t < bounds (i + 1) := by
  apply existsUnique_of_exists_of_unique
  · induction n with
    | zero => exact absurd hlast (Nat.not_lt.mpr hfirst)
    | succ n ih =>
      by_cases hn : t < bounds n
      · obtain ⟨i, hi, hin⟩ := ih hn
        exact ⟨i, Nat.lt_succ_of_lt hi, hin⟩
      · exact ⟨n, Nat.lt_succ_self n, Nat.not_lt.mp hn, hlast⟩
  · rintro i j ⟨-, hi, hi'⟩ ⟨-, hj, hj'⟩
    rcases Nat.lt_trichotomy i j with hlt | heq | hgt
    · exact absurd ((hmono hlt).trans hj) (Nat.not_le.mpr hi')
    · exact heq
    · exact absurd ((hmono hgt).trans hi) (Nat.not_le.mpr hj')

end Calendar
