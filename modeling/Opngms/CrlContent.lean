/-
Opngms/CrlContent.lean

What the CRL says (`refresh_syslog_crl` of services/syslog_crl.py): the list of serials and
dates that is handed to `build_crl`.

The ledger has serials as texts.  `int(s, 16)` reads back what `format(n, "x")` wrote, but it
reads more than that: spaces around the digits, a sign, the prefix `0x`, single underscores
and the digits of other scripts.  A text that it refuses is skipped.

Main result: **`crl_content`**.
-/
import Mathlib.Data.List.TakeWhile
import Opngms.ConfigDiff
import Opngms.LeastEntries
import Opngms.PyText
import Opngms.RevocationList

namespace Opngms

namespace LogForwarding

/-! ### Serials -/

/-- The character that `int` reads for one: a space for white space, and for a decimal digit
that of ASCII. -/
def asciiOf (c : Char) : Char :=
  if c.toNat < 127 then c
  else if isSpace c then ' '
  else
    match decimalValue c with
    | some d => Char.ofNat (48 + d)
    | none => '?'

def isAsciiSpace (c : Char) : Bool := (9 ≤ c.toNat && c.toNat ≤ 13) || c == ' '

def signOf : List Char → Bool × List Char
  | '-' :: cs => (true, cs)
  | '+' :: cs => (false, cs)
  | cs => (false, cs)

/-- What follows the prefix of the base; one underscore belongs to the prefix. -/
def afterPrefix : List Char → List Char
  | '0' :: 'x' :: '_' :: cs => cs
  | '0' :: 'X' :: '_' :: cs => cs
  | '0' :: 'x' :: cs => cs
  | '0' :: 'X' :: cs => cs
  | cs => cs

def inRun (c : Char) : Bool := (digit c).isSome || c == '_'

/-- The number after a sign: no underscore at an end of its digits or next to another. -/
def unsigned (cs : List Char) : Option Nat :=
  let cs := afterPrefix cs
  let run := cs.takeWhile inRun
  let rest := cs.dropWhile inRun
  if (run.splitOn '_').all (fun part => !part.isEmpty) ∧ rest.all isAsciiSpace then
    (run.filter (· ≠ '_')).foldlM (fun n c => (digit c).map (16 * n + ·)) 0
  else none

/-- `int(text, 16)`; `none` where it raises. -/
def int16 (text : String) : Option Int :=
  let signed := signOf ((text.toList.map asciiOf).dropWhile isAsciiSpace)
  (unsigned signed.2).map fun n => if signed.1 then -(n : Int) else n

/-- `format(n, "x")`. -/
def serialText : Int → String
  | .ofNat n => hex n
  | .negSucc n => "-" ++ hex (n + 1)

def HexDigit (c : Char) : Prop := ∃ d < 16, c = Nat.digitChar d

theorem hexDigit_of_mem {n : Nat} {c : Char} (h : c ∈ Nat.toDigits 16 n) : HexDigit c := by
  induction n using Nat.strongRecOn with
  | ind n ih =>
    by_cases hn : n < 16
    · rw [Nat.toDigits_of_lt_base hn] at h
      exact ⟨n, hn, List.mem_singleton.mp h⟩
    · have hle : 16 ≤ n := Nat.le_of_not_lt hn
      rw [Nat.toDigits_of_base_le (by decide) hle, List.mem_append] at h
      rcases h with h | h
      · exact ih (n / 16) (Nat.div_lt_self (by omega) (by decide)) h
      · exact ⟨n % 16, Nat.mod_lt n (by decide), List.mem_singleton.mp h⟩

theorem HexDigit.spec {c : Char} (h : HexDigit c) :
    asciiOf c = c ∧ isAsciiSpace c = false ∧ c ≠ '-' ∧ c ≠ '+' ∧ c ≠ 'x' ∧ c ≠ 'X' ∧
      c ≠ '_' ∧ inRun c = true := by
  obtain ⟨d, hd, rfl⟩ := h
  have hall : ∀ d < 16, asciiOf (Nat.digitChar d) = Nat.digitChar d ∧
      isAsciiSpace (Nat.digitChar d) = false ∧ Nat.digitChar d ≠ '-' ∧ Nat.digitChar d ≠ '+' ∧
      Nat.digitChar d ≠ 'x' ∧ Nat.digitChar d ≠ 'X' ∧ Nat.digitChar d ≠ '_' ∧
      inRun (Nat.digitChar d) = true := by decide
  exact hall d hd

theorem HexDigit.inRun {c : Char} (h : HexDigit c) : inRun c = true := h.spec.2.2.2.2.2.2.2

theorem HexDigit.ne_underscore {c : Char} (h : HexDigit c) : c ≠ '_' := h.spec.2.2.2.2.2.2.1

section Read

variable {cs : List Char}

theorem afterPrefix_of_hex (h : ∀ c ∈ cs, HexDigit c) : afterPrefix cs = cs := by
  match cs with
  | [] => rfl
  | [c] =>
    unfold afterPrefix
    split <;> simp_all
  | c :: c' :: cs =>
    have hc := (h c' (by simp)).spec
    unfold afterPrefix
    split <;> simp_all

theorem unsigned_of_hex (h : ∀ c ∈ cs, HexDigit c) (hne : cs ≠ []) :
    unsigned cs = cs.foldlM (fun n c => (digit c).map (16 * n + ·)) 0 := by
  have hrun : cs.takeWhile inRun = cs :=
    List.takeWhile_eq_self_iff.mpr fun c hc => (h c hc).inRun
  have hrest : cs.dropWhile inRun = [] :=
    List.dropWhile_eq_nil_iff.mpr fun c hc => (h c hc).inRun
  have hparts : cs.splitOn '_' = [cs] :=
    List.splitOn_eq_singleton fun hmem => (h '_' hmem).ne_underscore rfl
  have hfilter : cs.filter (· ≠ '_') = cs :=
    List.filter_eq_self.mpr fun c hc => by simpa using (h c hc).ne_underscore
  rw [unsigned, afterPrefix_of_hex h]
  simp only [hrun, hrest, hparts, hfilter]
  rw [if_pos]
  simp [hne]

theorem signOf_of_hex (h : ∀ c ∈ cs, HexDigit c) :
    signOf ((cs.map asciiOf).dropWhile isAsciiSpace) = (false, cs) := by
  have hascii : cs.map asciiOf = cs :=
    (List.map_congr_left fun c hc => (h c hc).spec.1).trans (List.map_id cs)
  rw [hascii]
  cases cs with
  | nil => rfl
  | cons c cs =>
    obtain ⟨-, hspace, hminus, hplus, -⟩ := (h c List.mem_cons_self).spec
    rw [List.dropWhile_cons_of_neg (by simp [hspace])]
    unfold signOf
    split <;> simp_all

theorem unsigned_toDigits (n : Nat) : unsigned (Nat.toDigits 16 n) = some n := by
  rw [unsigned_of_hex (fun c => hexDigit_of_mem) Nat.toDigits_ne_nil]
  exact readDigits_toDigits n

end Read

/-- **A serial is read back from its text.** -/
theorem int16_serialText (n : Int) : int16 (serialText n) = some n := by
  cases n with
  | ofNat n =>
    have hsign := @signOf_of_hex (Nat.toDigits 16 n) fun c => hexDigit_of_mem
    rw [serialText, int16, hex, String.toList_ofList, hsign, unsigned_toDigits]
    rfl
  | negSucc n =>
    have hascii := List.map_congr_left (l := Nat.toDigits 16 (n + 1)) fun c hc =>
      (hexDigit_of_mem hc).spec.1
    have htext : (serialText (.negSucc n)).toList = '-' :: Nat.toDigits 16 (n + 1) := by
      simp [serialText, hex]
    have hsign : signOf (('-' :: Nat.toDigits 16 (n + 1)).dropWhile isAsciiSpace) =
        (true, Nat.toDigits 16 (n + 1)) := rfl
    have hminus : asciiOf '-' = '-' := rfl
    rw [int16, htext, List.map_cons, hminus, hascii, List.map_id', hsign, unsigned_toDigits]
    rfl

/-! ### The list -/

/-- A row of the ledger, which has a date always. -/
structure LedgerRow (T : Type) where
  serial : String
  revokedAt : T

section Content

variable {T : Type} [LinearOrder T]

/-- The loop over the rows: the dates by serial. -/
def bySerial (rows : List (LedgerRow T)) : List (Int × T) :=
  rows.foldl (fun d row =>
    match int16 row.serial with
    | none => d
    | some serial => keepLeast d (serial, row.revokedAt)) []

/-- The list that `refresh_syslog_crl` hands to `build_crl`. -/
def revoked (rows : List (LedgerRow T)) : List (Int × T) := sortedItems (bySerial rows)

/-- The serial and the date of a row that is well formed. -/
def datedSerial (row : LedgerRow T) : Option (Int × T) :=
  (int16 row.serial).map fun serial => (serial, row.revokedAt)

theorem bySerial_eq (rows : List (LedgerRow T)) :
    bySerial rows = leastEntries (rows.filterMap datedSerial) := by
  rw [leastEntries, List.foldl_filterMap, bySerial]
  congr 1
  funext d row
  unfold datedSerial
  cases int16 row.serial <;> rfl

omit [LinearOrder T] in
theorem mem_filterMap_datedSerial {rows : List (LedgerRow T)} {n : Int} {t : T} :
    (n, t) ∈ rows.filterMap datedSerial ↔
      ∃ row ∈ rows, int16 row.serial = some n ∧ row.revokedAt = t := by
  simp [List.mem_filterMap, datedSerial]

theorem mem_revoked {rows : List (LedgerRow T)} {n : Int} {t : T} :
    (n, t) ∈ revoked rows ↔
      IsLeast {t | ∃ row ∈ rows, int16 row.serial = some n ∧ row.revokedAt = t} t := by
  have hperm : (revoked rows).Perm (bySerial rows) := sortBy_perm _
  rw [hperm.mem_iff, bySerial_eq, mem_leastEntries]
  simp only [mem_filterMap_datedSerial]

/-- **The content of the CRL**: the serials of the rows that are well formed, ascending, each
with its earliest date.  The order of the rows does not matter, nor do the others, and every
serial is read back from its text. -/
theorem crl_content (rows : List (LedgerRow T)) :
    ((revoked rows).Pairwise fun a b => a.1 < b.1) ∧
      (∀ n, n ∈ (revoked rows).map (·.1) ↔ ∃ row ∈ rows, int16 row.serial = some n) ∧
      (∀ n t, (n, t) ∈ revoked rows ↔
        IsLeast {t | ∃ row ∈ rows, int16 row.serial = some n ∧ row.revokedAt = t} t) ∧
      (∀ rows', rows.Perm rows' → revoked rows' = revoked rows) ∧
      (revoked (rows.filter fun row => (int16 row.serial).isSome) = revoked rows) ∧
      ∀ n, int16 (serialText n) = some n := by
  have hperm : (revoked rows).Perm (bySerial rows) := sortBy_perm _
  refine ⟨?_, ?_, fun n t => mem_revoked, ?_, ?_, int16_serialText⟩
  · apply sortedItems_ascending
    rw [bySerial_eq]
    exact nodup_leastEntries _
  · intro n
    rw [(hperm.map _).mem_iff, bySerial_eq, mem_keys_leastEntries]
    simp [datedSerial]
  · intro rows' hrows
    rw [revoked, revoked, bySerial_eq, bySerial_eq]
    exact sorted_congr fun kv => (hrows.filterMap _).mem_iff.symm
  · rw [revoked, revoked, bySerial_eq, bySerial_eq, List.filterMap_filter]
    congr 2
    apply List.filterMap_congr
    intro row _
    unfold datedSerial
    cases int16 row.serial <;> rfl

end Content

end LogForwarding

end Opngms
