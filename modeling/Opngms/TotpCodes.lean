/-
Opngms/TotpCodes.lean

Which codes `verify_totp` (services/mfa.py) accepts, and on which it raises.

A code is stripped of its white space and asked for `isdigit`, which every digit of Unicode
passes; `compare_digest` takes ASCII texts only.  So a code of digits with one that is not ASCII
comes to the comparison and raises a `TypeError` there.  All other codes are compared: the first
step of now, the one before and the one after whose value is the code is accepted, unless it was
used.

Main result: **`verifyTotp_exact_iff`**.
-/
import Opngms.ConfigDiff
import Opngms.Mfa
import Opngms.PyText

namespace Opngms

namespace TotpCodes

/-! ### The code -/

/-- `s.replace(" ", "")`. -/
def withoutBlanks (s : String) : String := String.ofList (s.toList.filter (· ≠ ' '))

/-- `code.strip().replace(" ", "")`. -/
def clean (code : String) : String := withoutBlanks (strip code)

/-- The digits of Unicode that are not decimal: superscripts, circled digits and the like. -/
def digitRanges : List (Nat × Nat) :=
  [(0xB2, 0xB3), (0xB9, 0xB9), (0x1369, 0x1371), (0x19DA, 0x19DA), (0x2070, 0x2070),
    (0x2074, 0x2079), (0x2080, 0x2089), (0x2460, 0x2468), (0x2474, 0x247C), (0x2488, 0x2490),
    (0x24EA, 0x24EA), (0x24F5, 0x24FD), (0x24FF, 0x24FF), (0x2776, 0x277E), (0x2780, 0x2788),
    (0x278A, 0x2792), (0x10A40, 0x10A43), (0x10E60, 0x10E68), (0x11052, 0x1105A),
    (0x1F100, 0x1F10A)]

/-- A digit of Unicode. -/
def isDigitChar (c : Char) : Bool :=
  isDecimal c || digitRanges.any fun r => r.1 ≤ c.toNat && c.toNat ≤ r.2

/-- `s.isdigit()`. -/
def isDigit (s : String) : Bool := !s.toList.isEmpty && s.toList.all isDigitChar

/-- `s.isascii()`. -/
def isAscii (s : String) : Bool := s.toList.all fun c => c.toNat < 128

/-- `secrets.compare_digest`, which takes ASCII texts only. -/
def compareDigest (a b : String) : Except BuiltinError Bool :=
  if isAscii a && isAscii b then .ok (a == b) else .error .typeError

section Verify

-- `pyotp.TOTP(secret).at(t)`
variable (totpAt : String → Int → String)

/-- The loop over the offsets, which ends at the first step whose value is the code. -/
def tryOffsets (secret code : String) (now : Int) (lastUsedStep : Option Int) :
    List Int → Except BuiltinError (Bool × Option Int)
  | [] => .ok (false, none)
  | offset :: offsets => do
    let step := now / 30 + offset
    if ← compareDigest (totpAt secret (step * 30)) code then
      match lastUsedStep with
      | some last => if step ≤ last then return (false, none) else return (true, some step)
      | none => return (true, some step)
    else tryOffsets secret code now lastUsedStep offsets

/-- `verify_totp` at the time `now`. -/
def verifyTotp (secret code : String) (now : Int) (lastUsedStep : Option Int) :
    Except BuiltinError (Bool × Option Int) :=
  if isDigit (clean code) then
    tryOffsets totpAt secret (clean code) now lastUsedStep [0, -1, 1]
  else .ok (false, none)

/-! ### What a code is accepted for -/

/-- What pyotp yields: six ASCII digits. -/
def SixDigits : Prop :=
  ∀ secret t, (totpAt secret t).toList.length = 6 ∧
    ∀ c ∈ (totpAt secret t).toList, 48 ≤ c.toNat ∧ c.toNat ≤ 57

/-- The first step of now, the one before and the one after whose value is the code. -/
def firstStep (secret code : String) (now : Int) : Option Int :=
  [now / 30, now / 30 - 1, now / 30 + 1].find? fun step => totpAt secret (step * 30) = code

/-- A code is accepted for a step: the first whose value it is, if that is after the last one
used. -/
def Accepts (secret code : String) (now : Int) (lastUsedStep : Option Int) (step : Int) : Prop :=
  firstStep totpAt secret code now = some step ∧ ∀ last, lastUsedStep = some last → last < step

/-- `verify_totp` returns, and accepts a code for exactly the steps for which it is to be accepted
when it is read as `read`. -/
def Exact (secret code read : String) (now : Int) (lastUsedStep : Option Int) : Prop :=
  ∃ r, verifyTotp totpAt secret code now lastUsedStep = .ok r ∧
    ∀ step, r = (true, some step) ↔ Accepts totpAt secret read now lastUsedStep step

end Verify

/-! ### White space -/

theorem filter_dropWhile {cs : List Char} (h : ∀ c ∈ cs, c ≠ ' ' → isSpace c = false) :
    (cs.dropWhile isSpace).filter (· ≠ ' ') = cs.filter (· ≠ ' ') := by
  induction cs with
  | nil => rfl
  | cons c cs ih =>
    rw [List.dropWhile_cons]
    split
    · rename_i hspace
      have hblank : c = ' ' := by
        by_contra hne
        exact Bool.noConfusion (hspace.symm.trans (h c List.mem_cons_self hne))
      rw [ih fun c' hc' => h c' (List.mem_cons_of_mem c hc'), hblank]
      rfl
    · rfl

theorem clean_eq_withoutBlanks {code : String}
    (h : ∀ c ∈ code.toList, c ≠ ' ' → isSpace c = false) : clean code = withoutBlanks code := by
  have hfront := filter_dropWhile h
  have hback : ∀ c ∈ (code.toList.dropWhile isSpace).reverse, c ≠ ' ' → isSpace c = false :=
    fun c hc => h c ((List.dropWhile_sublist _).subset (List.mem_reverse.mp hc))
  unfold clean withoutBlanks strip
  rw [String.toList_ofList, List.filter_reverse, filter_dropWhile hback, List.filter_reverse,
    List.reverse_reverse, hfront]

/-! ### ASCII digits -/

theorem isDigitChar_ascii {c : Char} (h : 48 ≤ c.toNat ∧ c.toNat ≤ 57) : isDigitChar c = true := by
  have hzero : (0x30 : Nat) ∈ digitZeros := by decide
  unfold isDigitChar isDecimal
  rw [Bool.or_eq_true, List.any_eq_true]
  refine .inl ⟨0x30, hzero, ?_⟩
  simp only [Bool.and_eq_true, decide_eq_true_eq]
  omega

theorem isSpace_digit {c : Char} (h : 48 ≤ c.toNat ∧ c.toNat ≤ 57) : isSpace c = false := by
  unfold isSpace isSpaceCode
  simp only [Bool.or_eq_false_iff, Bool.and_eq_false_iff, decide_eq_false_iff_not, beq_eq_false_iff_ne]
  omega

/-! ### The comparison -/

/-- The answer for the first step whose value is the code. -/
def settle (lastUsedStep : Option Int) : Option Int → Bool × Option Int
  | none => (false, none)
  | some step => if lastUsedStep.all (· < step) then (true, some step) else (false, none)

theorem settle_iff {lastUsedStep first : Option Int} {step : Int} :
    settle lastUsedStep first = (true, some step) ↔
      first = some step ∧ ∀ last, lastUsedStep = some last → last < step := by
  cases first with
  | none => exact ⟨nofun, nofun⟩
  | some s =>
    have hall : lastUsedStep.all (· < s) = true ↔ ∀ last, lastUsedStep = some last → last < s := by
      simp [Option.all_eq_true]
    show (if lastUsedStep.all (· < s) then (true, some s) else (false, none)) = _ ↔ _
    by_cases hfresh : lastUsedStep.all (· < s) = true
    · rw [if_pos hfresh]
      constructor
      · rintro heq
        obtain rfl : s = step := by simpa using heq
        exact ⟨rfl, hall.mp hfresh⟩
      · rintro ⟨heq, -⟩
        rw [Option.some.inj heq]
    · rw [if_neg hfresh]
      constructor
      · nofun
      · rintro ⟨heq, hlast⟩
        obtain rfl := Option.some.inj heq
        exact absurd (hall.mpr hlast) hfresh

section Verify

variable {totpAt : String → Int → String} (h : SixDigits totpAt)

include h

theorem isAscii_totp (secret : String) (t : Int) : isAscii (totpAt secret t) = true := by
  unfold isAscii
  rw [List.all_eq_true]
  intro c hc
  have hdigit := (h secret t).2 c hc
  simp only [decide_eq_true_eq]
  omega

theorem isDigit_totp (secret : String) (t : Int) : isDigit (totpAt secret t) = true := by
  obtain ⟨hlength, hdigits⟩ := h secret t
  unfold isDigit
  rw [Bool.and_eq_true, List.all_eq_true]
  refine ⟨?_, fun c hc => isDigitChar_ascii (hdigits c hc)⟩
  cases hcs : (totpAt secret t).toList with
  | nil =>
    rw [hcs] at hlength
    cases hlength
  | cons c cs => rfl

theorem compareDigest_totp (secret : String) (t : Int) (code : String) :
    compareDigest (totpAt secret t) code =
      if isAscii code then .ok (totpAt secret t == code) else .error .typeError := by
  unfold compareDigest
  rw [isAscii_totp h, Bool.true_and]

theorem tryOffsets_raises {secret code : String} {now : Int} {lastUsedStep : Option Int}
    (hcode : isAscii code = false) (offset : Int) (offsets : List Int) :
    tryOffsets totpAt secret code now lastUsedStep (offset :: offsets) = .error .typeError := by
  simp only [tryOffsets, compareDigest_totp h, hcode]
  rfl

theorem tryOffsets_ascii {secret code : String} {now : Int} (lastUsedStep : Option Int)
    (hcode : isAscii code = true) (offsets : List Int) :
    tryOffsets totpAt secret code now lastUsedStep offsets =
      .ok (settle lastUsedStep
        ((offsets.map (now / 30 + ·)).find? fun step => totpAt secret (step * 30) = code)) := by
  induction offsets with
  | nil => rfl
  | cons offset offsets ih =>
    simp only [tryOffsets, compareDigest_totp h, if_pos hcode, except_ok_bind, List.map_cons,
      List.find?_cons]
    by_cases heq : totpAt secret ((now / 30 + offset) * 30) = code
    · simp only [heq, beq_self_eq_true, if_true, decide_true, settle]
      cases lastUsedStep with
      | none => rfl
      | some last =>
        by_cases hlast : now / 30 + offset ≤ last
        · have hused : ¬ last < now / 30 + offset := not_lt.mpr hlast
          simp only [hlast, Option.all_some, hused, decide_false, Bool.false_eq_true, if_true,
            if_false]
          rfl
        · have hfresh : last < now / 30 + offset := not_le.mp hlast
          simp only [hlast, Option.all_some, hfresh, decide_true, if_true, if_false]
          rfl
    · simp only [beq_iff_eq, heq, decide_false]
      exact ih

theorem exact_of_ascii {secret code : String} {now : Int} {lastUsedStep : Option Int}
    (hcode : isDigit (clean code) = true → isAscii (clean code) = true) :
    Exact totpAt secret code (clean code) now lastUsedStep := by
  unfold Exact
  by_cases hdigit : isDigit (clean code) = true
  · refine ⟨_, (if_pos hdigit).trans (tryOffsets_ascii h lastUsedStep (hcode hdigit) _),
      fun step => ?_⟩
    have hsteps : ([0, -1, 1] : List Int).map (now / 30 + ·) =
        [now / 30, now / 30 - 1, now / 30 + 1] := by
      simp [Int.sub_eq_add_neg]
    rw [hsteps, settle_iff]
    rfl
  · refine ⟨_, if_neg hdigit, fun step => ⟨nofun, fun haccepts => ?_⟩⟩
    have hvalue := List.find?_some haccepts.1
    rw [decide_eq_true_eq] at hvalue
    rw [← hvalue] at hdigit
    exact absurd (isDigit_totp h _ _) hdigit

theorem verifyTotp_raises {secret code : String} {now : Int} {lastUsedStep : Option Int}
    (hdigit : isDigit (clean code) = true) (hascii : isAscii (clean code) = false) :
    verifyTotp totpAt secret code now lastUsedStep = .error .typeError :=
  (if_pos hdigit).trans (tryOffsets_raises h hascii _ _)

theorem clean_of_totp {secret code : String} {t : Int} (hcode : withoutBlanks code = totpAt secret t) :
    clean code = withoutBlanks code := by
  apply clean_eq_withoutBlanks
  intro c hc hne
  apply isSpace_digit
  apply (h secret t).2
  rw [← hcode, withoutBlanks, String.toList_ofList]
  exact List.mem_filter.mpr ⟨hc, by simpa using hne⟩

/-- **Which codes are verified.**  `verify_totp` is exact for the code as it strips it if and only
if this is not of digits some of which are not ASCII; and for the code without blanks, if and only
if moreover the code has no other white space around it, or is accepted for no step. -/
theorem verifyTotp_exact_iff (secret code : String) (now : Int) (lastUsedStep : Option Int) :
    (Exact totpAt secret code (clean code) now lastUsedStep ↔
      (isDigit (clean code) = true → isAscii (clean code) = true)) ∧
    (Exact totpAt secret code (withoutBlanks code) now lastUsedStep ↔
      (isDigit (clean code) = true → isAscii (clean code) = true) ∧
      (clean code = withoutBlanks code ∨
        ∀ step, ¬ Accepts totpAt secret (clean code) now lastUsedStep step)) := by
  have hreturns : ∀ {read}, Exact totpAt secret code read now lastUsedStep →
      isDigit (clean code) = true → isAscii (clean code) = true := by
    rintro read ⟨r, hr, -⟩ hdigit
    by_contra hascii
    rw [verifyTotp_raises h hdigit (Bool.eq_false_iff.mpr hascii)] at hr
    cases hr
  refine ⟨⟨hreturns, exact_of_ascii h⟩, ?_⟩
  constructor
  · intro hexact
    have hascii := hreturns hexact
    refine ⟨hascii, ?_⟩
    by_contra hnot
    push Not at hnot
    obtain ⟨hne, step, haccepts⟩ := hnot
    obtain ⟨r, hr, hiff⟩ := hexact
    have hclean : Exact totpAt secret code (clean code) now lastUsedStep := exact_of_ascii h hascii
    obtain ⟨r', hr', hiff'⟩ := hclean
    obtain rfl := Except.ok.inj (hr.symm.trans hr')
    -- the code is accepted, so without its blanks it is a value too
    have haccepts' := (hiff step).mp ((hiff' step).mpr haccepts)
    have hvalue := List.find?_some haccepts'.1
    rw [decide_eq_true_eq] at hvalue
    exact hne (clean_of_totp h hvalue.symm)
  · rintro ⟨hascii, hread⟩
    have hclean : Exact totpAt secret code (clean code) now lastUsedStep := exact_of_ascii h hascii
    rcases hread with heq | hnone
    · exact heq ▸ hclean
    · obtain ⟨r, hr, hiff⟩ := hclean
      refine ⟨r, hr, fun step => ⟨fun hstep => absurd ((hiff step).mp hstep) (hnone step), ?_⟩⟩
      intro haccepts
      have hvalue := List.find?_some haccepts.1
      rw [decide_eq_true_eq] at hvalue
      rw [← clean_of_totp h hvalue.symm] at haccepts
      exact absurd haccepts (hnone step)

end Verify

/-! ### Codes of one secret -/

def sampleSecret : String := "GEZDGNBVGY3TQOJQGEZDGNBVGY3TQOJQ"

/-- The values of the secret around 1111111109. -/
def sampleTotp (secret : String) (t : Int) : String :=
  if secret ≠ sampleSecret then "000000"
  else if t = 1111111050 then "731029"
  else if t = 1111111080 then "081804"
  else if t = 1111111110 then "050471"
  else "000000"

theorem sixDigits_sampleTotp : SixDigits sampleTotp := by
  intro secret t
  have hdigits (s : String) (hs : (s.toList.length == 6 &&
      s.toList.all fun c => decide (48 ≤ c.toNat ∧ c.toNat ≤ 57)) = true) :
      s.toList.length = 6 ∧ ∀ c ∈ s.toList, 48 ≤ c.toNat ∧ c.toNat ≤ 57 := by
    simpa using hs
  unfold sampleTotp
  split
  · exact hdigits _ (by decide)
  · split
    · exact hdigits _ (by decide)
    · split
      · exact hdigits _ (by decide)
      · split <;> exact hdigits _ (by decide)

/-- The value of the step, with blanks. -/
theorem verifyTotp_exact_iff_blanks :
    Exact sampleTotp sampleSecret " 081 804 " (clean " 081 804 ") 1111111109 (some 37037035) :=
  (verifyTotp_exact_iff sixDigits_sampleTotp _ _ _ _).1.mpr (by decide +kernel)

/-- The value of the step in full-width digits. -/
theorem fullWidthCode_raises :
    verifyTotp sampleTotp sampleSecret "０８１８０４" 1111111109 none = .error .typeError := by
  decide +kernel

end TotpCodes

end Opngms
