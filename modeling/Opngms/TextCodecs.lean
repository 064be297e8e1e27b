/-
Opngms/TextCodecs.lean

Three ways to write data as text, and reading it back: numerals of fixed width,
base64 with the URL-safe alphabet and with any other, and JSON string literals in ASCII.

The readers take more than the writers write, as Python's do: base64 skips what is not
in its alphabet, a JSON literal may use any escape.

Main results: **`readDigits_digits`**, **`b64Decode_encode`**, **`ofSextets_sextets`**,
**`loadsStr_dumpsStr`**.
-/
import Mathlib.Data.Nat.Basic
import Mathlib.Data.List.Basic
import Mathlib.Data.List.DropRight
import Mathlib.Tactic.IntervalCases

namespace TextCodecs

/-! ### Numerals -/

/-- `n` in `w` digits, with leading zeros. -/
def digits (base : Nat) : Nat → Nat → List Char
  | 0, _ => []
  | w + 1, n => digits base w (n / base) ++ [Nat.digitChar (n % base)]

/-- The value of a hexadecimal digit in either case; 16 for other characters. -/
def hexValue (c : Char) : Nat :=
  if '0' ≤ c ∧ c ≤ '9' then c.toNat - '0'.toNat
  else if 'a' ≤ c ∧ c ≤ 'f' then c.toNat - 'a'.toNat + 10
  else if 'A' ≤ c ∧ c ≤ 'F' then c.toNat - 'A'.toNat + 10
  else 16

def digitValue (base : Nat) (c : Char) : Option Nat :=
  if hexValue c < base then some (hexValue c) else none

def readDigits (base : Nat) (cs : List Char) : Option Nat :=
  cs.foldlM (fun n c => (digitValue base c).map (base * n + ·)) 0

@[simp] theorem length_digits (base w n : Nat) : (digits base w n).length = w := by
  induction w generalizing n with
  | zero => rfl
  | succ w ih => simp [digits, ih]

theorem digitValue_digitChar {base n : Nat} (hbase : base ≤ 16) (hn : n < base) :
    digitValue base n.digitChar = some n := by
  have hvalue : ∀ m < 16, hexValue (Nat.digitChar m) = m := by decide
  rw [digitValue, hvalue n (by omega), if_pos hn]

/-- **A numeral of fixed width reads back.** -/
theorem readDigits_digits {base : Nat} (hbase : base ≤ 16) {w n : Nat} (hn : n < base ^ w) :
    readDigits base (digits base w n) = some n := by
  unfold readDigits
  induction w generalizing n with
  | zero =>
    have hzero : n = 0 := by simpa using hn
    rw [hzero]
    rfl
  | succ w ih =>
    have hpos : 0 < base := by
      by_contra h0
      rw [Nat.eq_zero_of_not_pos h0, Nat.zero_pow (Nat.succ_pos w)] at hn
      omega
    have hdiv : n / base < base ^ w := by
      apply Nat.div_lt_of_lt_mul
      rwa [Nat.pow_succ'] at hn
    rw [digits, List.foldlM_append, ih hdiv]
    simp [digitValue_digitChar hbase (Nat.mod_lt n hpos), Nat.div_add_mod]

/-- The first `w` characters as a numeral, and the rest. -/
def number (base w : Nat) (cs : List Char) : Option (Nat × List Char) :=
  if w ≤ cs.length then (readDigits base (cs.take w)).map fun n => (n, cs.drop w) else none

theorem number_digits {base : Nat} (hbase : base ≤ 16) {w n : Nat} (hn : n < base ^ w)
    (rest : List Char) : number base w (digits base w n ++ rest) = some (n, rest) := by
  have hlen : w ≤ (digits base w n ++ rest).length := by simp
  have htake : (digits base w n ++ rest).take w = digits base w n := by
    rw [List.take_append_of_le_length (by simp), List.take_of_length_le (by simp)]
  have hdrop : (digits base w n ++ rest).drop w = rest := by
    rw [List.drop_append_of_le_length (by simp), List.drop_of_length_le (by simp), List.nil_append]
  rw [number, if_pos hlen, htake, hdrop, readDigits_digits hbase hn, Option.map_some]

def expect (c : Char) : List Char → Option (List Char)
  | [] => none
  | c' :: cs => if c' = c then some cs else none

@[simp] theorem expect_cons (c : Char) (cs : List Char) : expect c (c :: cs) = some cs := by
  simp [expect]

/-! ### Base64 -/

def alphabet : List Char :=
  "ABCDEFGHIJKLMNOPQRSTUVWXYZabcdefghijklmnopqrstuvwxyz0123456789-_".toList

def b64Char (n : Nat) : Char := alphabet.getD n 'A'

/-- `base64.urlsafe_b64encode`. -/
def b64Encode : List UInt8 → List Char
  | a :: b :: c :: rest =>
    [b64Char (a.toNat / 4), b64Char (a.toNat % 4 * 16 + b.toNat / 16),
      b64Char (b.toNat % 16 * 4 + c.toNat / 64), b64Char (c.toNat % 64)] ++ b64Encode rest
  | [a, b] =>
    [b64Char (a.toNat / 4), b64Char (a.toNat % 4 * 16 + b.toNat / 16),
      b64Char (b.toNat % 16 * 4), '=']
  | [a] => [b64Char (a.toNat / 4), b64Char (a.toNat % 4 * 16), '=', '=']
  | [] => []

/-- The six bits of a character; `+` and `/` are read as well, being what `-` and `_` are
translated to. -/
def b64Value (c : Char) : Option Nat :=
  if 'A' ≤ c ∧ c ≤ 'Z' then some (c.toNat - 'A'.toNat)
  else if 'a' ≤ c ∧ c ≤ 'z' then some (c.toNat - 'a'.toNat + 26)
  else if '0' ≤ c ∧ c ≤ '9' then some (c.toNat - '0'.toNat + 52)
  else if c = '+' ∨ c = '-' then some 62
  else if c = '/' ∨ c = '_' then some 63
  else none

/-- `binascii.a2b_base64`, not strict: the place in the quad, the bits left over and the pads
seen.  Padding that fills the quad ends the data. -/
def a2bBase64 : (quad left pads : Nat) → List Char → Option (List UInt8)
  | quad, _, _, [] => if quad = 0 then some [] else none
  | quad, left, pads, c :: cs =>
    if c = '=' then
      if 2 ≤ quad then
        if 4 ≤ quad + (pads + 1) then some [] else a2bBase64 quad left (pads + 1) cs
      else a2bBase64 quad left pads cs
    else
      match b64Value c with
      | none => a2bBase64 quad left pads cs
      | some v =>
        match quad with
        | 0 => a2bBase64 1 v 0 cs
        | 1 => (a2bBase64 2 (v % 16) 0 cs).map (UInt8.ofNat (left * 4 + v / 16) :: ·)
        | 2 => (a2bBase64 3 (v % 4) 0 cs).map (UInt8.ofNat (left * 16 + v / 4) :: ·)
        | _ => (a2bBase64 0 0 0 cs).map (UInt8.ofNat (left * 64 + v) :: ·)

/-- `base64.urlsafe_b64decode`. -/
def b64Decode (cs : List Char) : Option (List UInt8) := a2bBase64 0 0 0 cs

theorem b64Value_b64Char {n : Nat} (h : n < 64) :
    b64Value (b64Char n) = some n ∧ b64Char n ≠ '=' := by
  have hall : ∀ m < 64, b64Value (b64Char m) = some m ∧ b64Char m ≠ '=' := by decide +kernel
  exact hall n h

/-! The reader at each place of a quad, on a character of the alphabet. -/

section Places

variable {n : Nat} (h : n < 64) (left pads : Nat) (cs : List Char)

attribute [local simp] a2bBase64

include h

theorem a2bBase64_zero : a2bBase64 0 left pads (b64Char n :: cs) = a2bBase64 1 n 0 cs := by
  obtain ⟨hvalue, hne⟩ := b64Value_b64Char h
  rw [a2bBase64, if_neg hne, hvalue]
  rfl

theorem a2bBase64_one : a2bBase64 1 left pads (b64Char n :: cs) =
    (a2bBase64 2 (n % 16) 0 cs).map (UInt8.ofNat (left * 4 + n / 16) :: ·) := by
  obtain ⟨hvalue, hne⟩ := b64Value_b64Char h
  rw [a2bBase64, if_neg hne, hvalue]
  rfl

theorem a2bBase64_two : a2bBase64 2 left pads (b64Char n :: cs) =
    (a2bBase64 3 (n % 4) 0 cs).map (UInt8.ofNat (left * 16 + n / 4) :: ·) := by
  obtain ⟨hvalue, hne⟩ := b64Value_b64Char h
  rw [a2bBase64, if_neg hne, hvalue]
  rfl

theorem a2bBase64_three : a2bBase64 3 left pads (b64Char n :: cs) =
    (a2bBase64 0 0 0 cs).map (UInt8.ofNat (left * 64 + n) :: ·) := by
  obtain ⟨hvalue, hne⟩ := b64Value_b64Char h
  rw [a2bBase64, if_neg hne, hvalue]
  rfl

end Places

theorem a2bBase64_pad (left : Nat) : a2bBase64 3 left 0 ['='] = some [] := rfl

theorem a2bBase64_pads (left : Nat) : a2bBase64 2 left 0 ['=', '='] = some [] := rfl

theorem ofNat_eq {a : UInt8} {n : Nat} (h : n = a.toNat) : UInt8.ofNat n = a := by
  rw [h, UInt8.ofNat_toNat]

/-- **What base64 encodes, it decodes.** -/
theorem b64Decode_encode (bytes : List UInt8) : b64Decode (b64Encode bytes) = some bytes := by
  unfold b64Decode
  induction bytes using b64Encode.induct with
  | case1 a b c rest ih =>
    have ha := a.toNat_lt
    have hb := b.toNat_lt
    have hc := c.toNat_lt
    rw [b64Encode, List.cons_append, List.cons_append, List.cons_append, List.cons_append,
      List.nil_append, a2bBase64_zero (by omega), a2bBase64_one (by omega),
      a2bBase64_two (by omega), a2bBase64_three (by omega), ih]
    simp only [Option.map_some, Option.some.injEq, List.cons.injEq, and_true]
    exact ⟨ofNat_eq (by omega), ofNat_eq (by omega), ofNat_eq (by omega)⟩
  | case2 a b =>
    have ha := a.toNat_lt
    have hb := b.toNat_lt
    rw [b64Encode, a2bBase64_zero (by omega), a2bBase64_one (by omega), a2bBase64_two (by omega)]
    simp only [a2bBase64_pad, Option.map_some, Option.some.injEq, List.cons.injEq, and_true]
    exact ⟨ofNat_eq (by omega), ofNat_eq (by omega)⟩
  | case3 a =>
    have ha := a.toNat_lt
    rw [b64Encode, a2bBase64_zero (by omega), a2bBase64_one (by omega)]
    simp only [a2bBase64_pads, Option.map_some, Option.some.injEq, List.cons.injEq, and_true]
    exact ofNat_eq (by omega)
  | case4 => rfl

/-! ### Base64 over any alphabet -/

/-- Bytes by six bits; the bits that the last group lacks are zero. -/
def sextets : List UInt8 → List Nat
  | a :: b :: c :: rest =>
    a.toNat / 4 :: (a.toNat % 4 * 16 + b.toNat / 16) :: (b.toNat % 16 * 4 + c.toNat / 64) ::
      c.toNat % 64 :: sextets rest
  | [a, b] => [a.toNat / 4, a.toNat % 4 * 16 + b.toNat / 16, b.toNat % 16 * 4]
  | [a] => [a.toNat / 4, a.toNat % 4 * 16]
  | [] => []

/-- The bytes of groups of six bits; bits that fill no byte are dropped. -/
def ofSextets : List Nat → List UInt8
  | v :: w :: x :: y :: rest =>
    .ofNat (v * 4 + w / 16) :: .ofNat (w % 16 * 16 + x / 4) :: .ofNat (x % 4 * 64 + y) ::
      ofSextets rest
  | [v, w, x] => [.ofNat (v * 4 + w / 16), .ofNat (w % 16 * 16 + x / 4)]
  | [v, w] => [.ofNat (v * 4 + w / 16)]
  | _ => []

/-- How many characters a text of length `n` lacks to a multiple of four. -/
def padding (n : Nat) : Nat := (4 - n % 4) % 4

def pads (n : Nat) : List Char := List.replicate n '='

/-- A text for bytes, not padded. -/
def encodeBare (alphabet : Nat → Char) (bytes : List UInt8) : List Char :=
  (sextets bytes).map alphabet

def encodePadded (alphabet : Nat → Char) (bytes : List UInt8) : List Char :=
  encodeBare alphabet bytes ++ pads (padding (encodeBare alphabet bytes).length)

theorem length_encodeBare (alphabet : Nat → Char) (bytes : List UInt8) :
    (encodeBare alphabet bytes).length = (sextets bytes).length :=
  List.length_map alphabet

theorem sextets_lt {bytes : List UInt8} {n : Nat} (h : n ∈ sextets bytes) : n < 64 := by
  induction bytes using sextets.induct with
  | case1 a b c rest ih =>
    have ha := a.toNat_lt
    have hb := b.toNat_lt
    have hc := c.toNat_lt
    simp only [sextets, List.mem_cons] at h
    rcases h with rfl | rfl | rfl | rfl | h
    · omega
    · omega
    · omega
    · omega
    · exact ih h
  | case2 a b =>
    have ha := a.toNat_lt
    have hb := b.toNat_lt
    simp only [sextets, List.mem_cons, List.not_mem_nil, or_false] at h
    omega
  | case3 a =>
    have ha := a.toNat_lt
    simp only [sextets, List.mem_cons, List.not_mem_nil, or_false] at h
    omega
  | case4 => cases h

theorem length_sextets (bytes : List UInt8) : (sextets bytes).length % 4 ≠ 1 := by
  induction bytes using sextets.induct with
  | case1 a b c rest ih =>
    show ((sextets rest).length + 4) % 4 ≠ 1
    rw [Nat.add_mod_right]
    exact ih
  | case2 a b => show 3 % 4 ≠ 1; decide
  | case3 a => show 2 % 4 ≠ 1; decide
  | case4 => show 0 % 4 ≠ 1; decide

/-- **The groups of six bits tell the bytes.** -/
theorem ofSextets_sextets (bytes : List UInt8) : ofSextets (sextets bytes) = bytes := by
  induction bytes using sextets.induct with
  | case1 a b c rest ih =>
    have ha := a.toNat_lt
    have hb := b.toNat_lt
    have hc := c.toNat_lt
    rw [sextets, ofSextets, ih, ofNat_eq (a := a) (by omega), ofNat_eq (a := b) (by omega),
      ofNat_eq (a := c) (by omega)]
  | case2 a b =>
    have ha := a.toNat_lt
    have hb := b.toNat_lt
    rw [sextets, ofSextets, ofNat_eq (a := a) (by omega), ofNat_eq (a := b) (by omega)]
  | case3 a =>
    have ha := a.toNat_lt
    rw [sextets, ofSextets, ofNat_eq (a := a) (by omega)]
  | case4 => rfl

theorem b64Encode_eq (bytes : List UInt8) : b64Encode bytes = encodePadded b64Char bytes := by
  induction bytes using sextets.induct with
  | case1 a b c rest ih =>
    have hlen : padding (encodeBare b64Char (a :: b :: c :: rest)).length =
        padding (encodeBare b64Char rest).length := by
      show (4 - ((encodeBare b64Char rest).length + 4) % 4) % 4 = _
      rw [Nat.add_mod_right]
      rfl
    rw [b64Encode, ih, encodePadded, encodePadded, hlen]
    rfl
  | case2 a b => rfl
  | case3 a => rfl
  | case4 => rfl

theorem padding_add {n k : Nat} (h : k ≤ padding n) : k + padding (n + k) = padding n := by
  unfold padding at h ⊢
  omega

theorem length_encodePadded (alphabet : Nat → Char) (bytes : List UInt8) :
    (encodePadded alphabet bytes).length % 4 = 0 := by
  rw [encodePadded, List.length_append, pads, List.length_replicate, padding]
  omega

theorem rdropWhile_pads {cs : List Char} (h : '=' ∉ cs) (n : Nat) :
    (cs ++ pads n).rdropWhile (· = '=') = cs := by
  induction n with
  | zero =>
    rw [pads, List.replicate_zero, List.append_nil, List.rdropWhile_eq_self_iff]
    intro hne hlast
    exact h (of_decide_eq_true hlast ▸ List.getLast_mem hne)
  | succ n ih =>
    rw [pads, List.replicate_succ', ← List.append_assoc, List.rdropWhile_concat_pos _ _ _ (by simp)]
    exact ih

/-! ### JSON string literals -/

/-- The UTF-16 code units of a character. -/
def units (c : Char) : List Nat :=
  if c.toNat < 0x10000 then [c.toNat]
  else [0xD800 + (c.toNat - 0x10000) / 0x400, 0xDC00 + (c.toNat - 0x10000) % 0x400]

def shortEscapes : List (Char × Char) :=
  [('"', '"'), ('\\', '\\'), ('\n', 'n'), ('\r', 'r'), ('\t', 't'), ('\x0c', 'f'), ('\x08', 'b')]

/-- A character in a literal of `json.dumps`, `ensure_ascii` being on. -/
def escape (c : Char) : List Char :=
  match shortEscapes.lookup c with
  | some letter => ['\\', letter]
  | none =>
    if ' ' ≤ c ∧ c ≤ '~' then [c]
    else (units c).flatMap fun u => '\\' :: 'u' :: digits 16 4 u

/-- `json.dumps` of a string. -/
def dumpsStr (s : String) : List Char := '"' :: s.toList.flatMap escape ++ ['"']

def unescape (letter : Char) : Option Char :=
  if letter = '/' then some '/' else (shortEscapes.find? (·.2 = letter)).map (·.1)

/-- A literal after its opening quote: its code units, and what follows the closing quote.
Control characters are refused. -/
def scan : List Char → Option (List Nat × List Char)
  | [] => none
  | '"' :: cs => some ([], cs)
  | '\\' :: 'u' :: c1 :: c2 :: c3 :: c4 :: cs => do
    let u ← readDigits 16 [c1, c2, c3, c4]
    let (us, rest) ← scan cs
    return (u :: us, rest)
  | '\\' :: letter :: cs => do
    let c ← unescape letter
    let (us, rest) ← scan cs
    return (c.toNat :: us, rest)
  | c :: cs => do
    if c.toNat < 0x20 then none
    else
      let (us, rest) ← scan cs
      return (c.toNat :: us, rest)

/-- The characters of code units; a surrogate without its other half is none. -/
def joinUnits : List Nat → Option (List Char)
  | [] => some []
  | [u] => if u < 0xD800 ∨ 0xDFFF < u then some [Char.ofNat u] else none
  | u :: v :: us =>
    if u < 0xD800 ∨ 0xDFFF < u then (joinUnits (v :: us)).map (Char.ofNat u :: ·)
    else if u < 0xDC00 ∧ 0xDC00 ≤ v ∧ v ≤ 0xDFFF then
      (joinUnits us).map (Char.ofNat (0x10000 + (u - 0xD800) * 0x400 + (v - 0xDC00)) :: ·)
    else none

/-- `json.loads` of a string literal, after its opening quote. -/
def loadsStr (cs : List Char) : Option (String × List Char) := do
  let (us, rest) ← scan cs
  let chars ← joinUnits us
  return (String.ofList chars, rest)

theorem joinUnits_units (c : Char) (us : List Nat) :
    joinUnits (units c ++ us) = (joinUnits us).map (c :: ·) := by
  have hvalid := c.valid
  have hchar : Char.ofNat c.toNat = c := Char.ofNat_toNat c
  unfold units
  split
  · rename_i hlt
    have hns : c.toNat < 0xD800 ∨ 0xDFFF < c.toNat := by
      rcases hvalid with h | ⟨h, _⟩
      · exact Or.inl h
      · exact Or.inr h
    cases us with
    | nil => simp [joinUnits, hns, hchar]
    | cons u us => simp [joinUnits, hns, hchar]
  · rename_i hge
    have hmax : c.toNat < 0x110000 := by
      rcases hvalid with h | ⟨_, h⟩
      · exact Nat.lt_trans h (by decide)
      · exact h
    have hhigh : ¬ (0xD800 + (c.toNat - 0x10000) / 0x400 < 0xD800 ∨
        0xDFFF < 0xD800 + (c.toNat - 0x10000) / 0x400) := by omega
    have hlow : 0xD800 + (c.toNat - 0x10000) / 0x400 < 0xDC00 ∧
        0xDC00 ≤ 0xDC00 + (c.toNat - 0x10000) % 0x400 ∧
        0xDC00 + (c.toNat - 0x10000) % 0x400 ≤ 0xDFFF := by omega
    have hvalue : 0x10000 + (0xD800 + (c.toNat - 0x10000) / 0x400 - 0xD800) * 0x400 +
        (0xDC00 + (c.toNat - 0x10000) % 0x400 - 0xDC00) = c.toNat := by omega
    simp only [List.cons_append, List.nil_append, joinUnits]
    rw [if_neg hhigh, if_pos hlow, hvalue, hchar]

theorem joinUnits_flatMap (chars : List Char) :
    joinUnits (chars.flatMap units) = some chars := by
  induction chars with
  | nil => rfl
  | cons c chars ih => rw [List.flatMap_cons, joinUnits_units, ih, Option.map_some]

theorem units_lt (c : Char) : ∀ u ∈ units c, u < 16 ^ 4 := by
  have hmax : c.toNat < 0x110000 := by
    rcases c.valid with h | ⟨_, h⟩
    · exact Nat.lt_trans h (by decide)
    · exact h
  intro u hu
  unfold units at hu
  split at hu
  · rw [List.mem_singleton] at hu
    omega
  · rcases List.mem_cons.mp hu with rfl | hu
    · omega
    · rw [List.mem_singleton] at hu
      omega

theorem scan_unit {u : Nat} (hu : u < 16 ^ 4) (cs : List Char) :
    scan ('\\' :: 'u' :: digits 16 4 u ++ cs) = (scan cs).map fun r => (u :: r.1, r.2) := by
  have hread : readDigits 16 (digits 16 4 u) = some u := readDigits_digits (by decide) hu
  have hlen := length_digits 16 4 u
  generalize digits 16 4 u = ds at hread hlen
  match ds, hlen with
  | [c1, c2, c3, c4], _ =>
    simp only [List.cons_append, List.nil_append, scan, hread]
    cases scan cs <;> rfl

/-- What stands for a character in a literal reads as the character. -/
theorem scan_escape (c : Char) (cs : List Char) :
    scan (escape c ++ cs) = (scan cs).map fun r => (units c ++ r.1, r.2) := by
  unfold escape
  cases hshort : shortEscapes.lookup c with
  | some letter =>
    have hall : ∀ e ∈ shortEscapes, unescape e.2 = some e.1 ∧ units e.1 = [e.1.toNat] ∧
        e.2 ≠ 'u' := by decide
    obtain ⟨before, after, hmem, _⟩ := List.lookup_eq_some_iff.mp hshort
    obtain ⟨hback, hunits, hne⟩ := hall (c, letter) (by simp [hmem])
    dsimp only at hback hunits hne ⊢
    rw [hunits, List.cons_append, List.cons_append, List.nil_append]
    have hscan : scan ('\\' :: letter :: cs) = (do
        let c ← unescape letter
        let (us, rest) ← scan cs
        return (c.toNat :: us, rest)) := by
      rw [scan.eq_4]
      exact fun _ _ _ _ _ h => absurd h hne
    rw [hscan, hback]
    cases scan cs <;> rfl
  | none =>
    have hquote : c ≠ '"' := by
      rintro rfl
      exact absurd hshort (by decide)
    have hslash : c ≠ '\\' := by
      rintro rfl
      exact absurd hshort (by decide)
    dsimp only
    split
    · -- printable ASCII stands for itself
      rename_i hprint
      have hlow : ¬ c.toNat < 0x20 := by
        have h : (' ' : Char).toNat ≤ c.toNat := hprint.1
        have hspace : (' ' : Char).toNat = 0x20 := rfl
        omega
      have hunits : units c = [c.toNat] := by
        have h : c.toNat ≤ ('~' : Char).toNat := hprint.2
        have htilde : ('~' : Char).toNat = 0x7E := rfl
        rw [units, if_pos (by omega)]
      rw [hunits, List.cons_append, List.nil_append, scan.eq_5 _ _ hquote]
      · rw [if_neg hlow]
        cases scan cs <;> rfl
      · intro _ _ _ _ _ h
        exact absurd h hslash
      · intro _ _ h
        exact absurd h hslash
    · have hlt := units_lt c
      generalize units c = us at hlt
      induction us with
      | nil => simp
      | cons u us ih =>
        rw [List.flatMap_cons, List.append_assoc, scan_unit (hlt u (List.mem_cons_self ..)),
          ih fun v hv => hlt v (List.mem_cons_of_mem _ hv), Option.map_map]
        rfl

theorem scan_flatMap (chars cs : List Char) :
    scan (chars.flatMap escape ++ '"' :: cs) = some (chars.flatMap units, cs) := by
  induction chars with
  | nil => rfl
  | cons c chars ih =>
    rw [List.flatMap_cons, List.append_assoc, scan_escape, ih, List.flatMap_cons]
    rfl

/-- **A dumped string loads as itself.** -/
theorem loadsStr_dumpsStr (s : String) (cs : List Char) :
    (expect '"' (dumpsStr s ++ cs)).bind loadsStr = some (s, cs) := by
  rw [dumpsStr, List.cons_append, List.cons_append, expect_cons, List.append_assoc,
    Option.bind_some, loadsStr, List.singleton_append, scan_flatMap]
  simp [joinUnits_flatMap]

end TextCodecs
