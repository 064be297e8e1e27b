/-
Opngms/PyValues.lean

JSON values with every text and every number that Python decodes.

A text is any sequence of code points: a JSON escape can write a surrogate on its
own, and such a text cannot be encoded (`UnicodeEncodeError`).  An integer has any
size: beyond 4300 digits it cannot be written (`ValueError`), and from the limit
of the floating-point numbers on it cannot be converted (`OverflowError`).  The
other operations raise on the shape of a value.

Floating-point numbers and the tables of Unicode are parameters (`Platform`),
with what is documented of them as fields.

`Returns` is the property to end without an exception; it goes through a program
step by step (`returns_bind`, `returns_gather`, and one lemma for each operation).
-/
import Mathlib.Algebra.Group.Nat.Defs
import Mathlib.Data.List.Basic
import Mathlib.Data.List.Induction
import Opngms.PyText

namespace Py

/-! ### Programs that return -/

/-- The built-in exceptions of the operations below. -/
inductive PyException where
  | attributeError
  | typeError
  | valueError
  | overflowError
  | unicodeEncodeError
  deriving DecidableEq

def Returns {ε α : Type} (x : Except ε α) : Prop := ∃ a, x = .ok a

section Returns

variable {ε α β : Type}

@[simp] theorem returns_ok (a : α) : Returns (.ok a : Except ε α) := ⟨a, rfl⟩

@[simp] theorem returns_pure (a : α) : Returns (pure a : Except ε α) := ⟨a, rfl⟩

@[simp] theorem not_returns_error (e : ε) : ¬ Returns (.error e : Except ε α) := nofun

theorem returns_bind {x : Except ε α} {f : α → Except ε β} :
    Returns (x >>= f) ↔ ∃ a, x = .ok a ∧ Returns (f a) := by
  constructor
  · rintro ⟨b, hb⟩
    obtain ⟨a, ha, hf⟩ := except_bind_ok hb
    exact ⟨a, ha, b, hf⟩
  · rintro ⟨a, rfl, hf⟩
    exact hf

theorem returns_bind_of_forall {x : Except ε α} {f : α → Except ε β} {P : Prop}
    (h : ∀ a, Returns (f a) ↔ P) : Returns (x >>= f) ↔ Returns x ∧ P := by
  rw [returns_bind]
  constructor
  · rintro ⟨a, ha, hf⟩
    exact ⟨⟨a, ha⟩, (h a).mp hf⟩
  · rintro ⟨⟨a, ha⟩, hP⟩
    exact ⟨a, ha, (h a).mpr hP⟩

theorem returns_bind_pure {x : Except ε α} {f : α → β} :
    Returns (x >>= fun a => pure (f a)) ↔ Returns x := by
  rw [returns_bind_of_forall fun a => iff_true_intro (returns_pure (f a)), and_true]

@[simp] theorem returns_map {x : Except ε α} {f : α → β} : Returns (f <$> x) ↔ Returns x := by
  cases x with
  | error e => exact iff_of_false nofun nofun
  | ok a => exact iff_of_true ⟨f a, rfl⟩ ⟨a, rfl⟩

/-- A loop that appends to a list, or goes on without. -/
def gather (f : α → Except ε (Option β)) : List α → Except ε (List β)
  | [] => .ok []
  | x :: xs => do
    let y ← f x
    let ys ← gather f xs
    return y.toList ++ ys

theorem returns_gather {f : α → Except ε (Option β)} {xs : List α} :
    Returns (gather f xs) ↔ ∀ x ∈ xs, Returns (f x) := by
  induction xs with
  | nil => simp [gather]
  | cons x xs ih =>
    rw [List.forall_mem_cons, ← ih, gather]
    refine returns_bind_of_forall fun y => ?_
    rw [returns_bind_of_forall fun ys => iff_true_intro (returns_pure _), and_true]

theorem mem_gather {f : α → Except ε (Option β)} {xs : List α} {ys : List β}
    (h : gather f xs = .ok ys) {y : β} (hy : y ∈ ys) : ∃ x ∈ xs, f x = .ok (some y) := by
  induction xs generalizing ys with
  | nil =>
    obtain rfl := Except.ok.inj h
    cases hy
  | cons x xs ih =>
    obtain ⟨z, hz, h⟩ := except_bind_ok h
    obtain ⟨zs, hzs, h⟩ := except_bind_ok h
    obtain rfl := Except.ok.inj h
    rcases List.mem_append.mp hy with hy | hy
    · obtain rfl := Option.mem_toList.mp hy
      exact ⟨x, List.mem_cons_self, hz⟩
    · obtain ⟨w, hw, hf⟩ := ih hzs hy
      exact ⟨w, List.mem_cons_of_mem _ hw, hf⟩

end Returns

/-! ### Texts -/

abbrev CodePoint := Fin 0x110000

/-- A `str`. -/
abbrev PyStr := List CodePoint

theorem toNat_lt (c : Char) : c.toNat < 0x110000 := by
  rcases c.valid with h | h
  · have : c.toNat < 0xD800 := h
    omega
  · exact h.2

def codePoint (c : Char) : CodePoint := ⟨c.toNat, toNat_lt c⟩

def lit (s : String) : PyStr := s.toList.map codePoint

def Surrogate (c : CodePoint) : Prop := 0xD800 ≤ c.val ∧ c.val < 0xE000

instance (c : CodePoint) : Decidable (Surrogate c) := inferInstanceAs (Decidable (_ ∧ _))

def Encodable (s : PyStr) : Prop := ∀ c ∈ s, ¬ Surrogate c

instance (s : PyStr) : Decidable (Encodable s) := inferInstanceAs (Decidable (∀ c ∈ s, _))

/-- `s.encode()`: whether it raises. -/
def encode (s : PyStr) : Except PyException Unit :=
  if Encodable s then .ok () else .error .unicodeEncodeError

theorem returns_encode {s : PyStr} : Returns (encode s) ↔ Encodable s := by
  unfold encode
  split
  · rename_i h
    exact iff_of_true (returns_ok _) h
  · rename_i h
    exact iff_of_false (not_returns_error _) h

@[simp] theorem encodable_nil : Encodable [] := nofun

@[simp] theorem encodable_cons {c : CodePoint} {s : PyStr} :
    Encodable (c :: s) ↔ ¬ Surrogate c ∧ Encodable s := List.forall_mem_cons

@[simp] theorem encodable_append {s t : PyStr} :
    Encodable (s ++ t) ↔ Encodable s ∧ Encodable t := List.forall_mem_append

theorem Encodable.mono {s t : PyStr} (h : Encodable t) (hsub : s ⊆ t) : Encodable s :=
  fun c hc => h c (hsub hc)

theorem not_surrogate_codePoint (c : Char) : ¬ Surrogate (codePoint c) := by
  rintro ⟨hlo, hhi⟩
  have hlo' : 0xD800 ≤ c.toNat := hlo
  have hhi' : c.toNat < 0xE000 := hhi
  rcases c.valid with h | h
  · have : c.toNat < 0xD800 := h
    omega
  · have : 0xDFFF < c.toNat := h.1
    omega

@[simp] theorem encodable_lit (s : String) : Encodable (lit s) := by
  intro c hc
  obtain ⟨d, -, rfl⟩ := List.mem_map.mp hc
  exact not_surrogate_codePoint d

theorem encodable_intercalate {sep : PyStr} (hsep : Encodable sep) {parts : List PyStr} :
    Encodable (sep.intercalate parts) ↔ ∀ part ∈ parts, Encodable part := by
  induction parts with
  | nil => simp
  | cons part rest ih =>
    rw [List.forall_mem_cons]
    cases rest with
    | nil => simp
    | cons next rest =>
      rw [List.intercalate_cons_cons, encodable_append, encodable_append, ih, and_assoc]
      exact and_congr_right fun _ => and_iff_right hsep

/-- A character that `s.strip()` and `\s` take for white space. -/
def isSpace (c : CodePoint) : Bool := Opngms.isSpaceCode c.val

/-- `s.strip()`, of the characters of a class. -/
def stripOf (p : CodePoint → Bool) (s : PyStr) : PyStr :=
  ((s.dropWhile p).reverse.dropWhile p).reverse

/-- `s.strip()`. -/
def strip (s : PyStr) : PyStr := stripOf isSpace s

/-- `s.split(sep)` at one character. -/
def split (sep : Char) (s : PyStr) : List PyStr := s.splitOn (codePoint sep)

/-- `s.replace(c, new)` of one character. -/
def replace (c : Char) (new : String) (s : PyStr) : PyStr :=
  s.flatMap fun d => if d = codePoint c then lit new else [d]

/-- `s.rsplit(sep, 1)[-1]` at one character. -/
def afterLast (sep : Char) (s : PyStr) : PyStr :=
  (s.reverse.takeWhile fun c => decide (c ≠ codePoint sep)).reverse

/-- `s.rsplit(sep, 1)[0]` at one character. -/
def beforeLast (sep : Char) (s : PyStr) : PyStr :=
  if codePoint sep ∈ s then
    ((s.reverse.dropWhile fun c => decide (c ≠ codePoint sep)).drop 1).reverse
  else s

/-! ### Digits -/

def digit (c : CodePoint) : Option Nat :=
  (Opngms.digitZeros.find? fun z => z ≤ c.val && c.val < z + 10).map fun z => c.val - z

/-- `\d`. -/
def isDigit (c : CodePoint) : Bool := (digit c).isSome

def number (digits : PyStr) : Nat := digits.foldl (fun n c => 10 * n + (digit c).getD 0) 0

def maxDigits : Nat := 4300

/-- `int(s)` of a run of digits. -/
def toInt (s : PyStr) : Except PyException Nat :=
  if s ≠ [] ∧ s.all isDigit = true ∧ s.length ≤ maxDigits then .ok (number s)
  else .error .valueError

theorem returns_toInt {s : PyStr} (hne : s ≠ []) (hall : ∀ c ∈ s, isDigit c = true) :
    Returns (toInt s) ↔ s.length ≤ maxDigits := by
  unfold toInt
  split
  · rename_i h
    exact iff_of_true (returns_ok _) h.2.2
  · rename_i h
    refine iff_of_false (not_returns_error _) fun hlen => h ⟨hne, ?_, hlen⟩
    exact List.all_eq_true.mpr hall

theorem number_of_toInt {s : PyStr} {n : Nat} (h : toInt s = .ok n) : number s = n := by
  unfold toInt at h
  split at h
  · exact Except.ok.inj h
  · cases h

theorem digit_lt {c : CodePoint} {d : Nat} (h : digit c = some d) : d < 10 := by
  obtain ⟨z, hz, rfl⟩ := Option.map_eq_some_iff.mp h
  have hrange := List.find?_some hz
  simp only [Bool.and_eq_true, decide_eq_true_eq] at hrange
  omega

theorem number_lt (s : PyStr) : number s < 10 ^ s.length := by
  have hdigit : ∀ c : CodePoint, (digit c).getD 0 < 10 := by
    intro c
    cases h : digit c with
    | none => decide
    | some d => exact digit_lt h
  unfold number
  induction s using List.reverseRecOn with
  | nil => decide
  | append_singleton s c ih =>
    rw [List.foldl_append, List.length_append, List.length_singleton, Nat.pow_succ]
    have hc := hdigit c
    simp only [List.foldl_cons, List.foldl_nil]
    omega

theorem not_surrogate_of_isDigit {c : CodePoint} (h : isDigit c = true) : ¬ Surrogate c := by
  have htable : ∀ z ∈ Opngms.digitZeros, z + 10 ≤ 0xD800 ∨ 0xE000 ≤ z := by decide
  obtain ⟨d, hd⟩ := Option.isSome_iff_exists.mp h
  obtain ⟨z, hz, -⟩ := Option.map_eq_some_iff.mp hd
  have hrange := List.find?_some hz
  simp only [Bool.and_eq_true, decide_eq_true_eq] at hrange
  rintro ⟨hlo, hhi⟩
  have := htable z (List.mem_of_find?_eq_some hz)
  omega

/-! ### Values -/

/-- The value of a JSON document; `F` are the floating-point numbers. -/
inductive Value (F : Type) where
  | null
  | bool (b : Bool)
  | int (n : Int)
  | float (x : F)
  | str (s : PyStr)
  | arr (xs : List (Value F))
  | obj (kvs : List (PyStr × Value F))

/-- A run of digits with at most a sign before it and a point in it, not at its
end. -/
def Numeral (t : PyStr) : Prop :=
  ∃ sign whole point frac : PyStr, t = sign ++ whole ++ point ++ frac ∧
    (sign = [] ∨ sign = lit "-" ∨ sign = lit "+") ∧ (∀ c ∈ whole, isDigit c = true) ∧
    (point = [] ∨ point = lit ".") ∧ frac ≠ [] ∧ ∀ c ∈ frac, isDigit c = true

/-- The floating-point numbers, and what the Unicode tables tell. -/
structure Platform (F : Type) where
  /-- `s.lower()`. -/
  lower : PyStr → PyStr
  /-- `c.isalnum()`. -/
  isAlnum : CodePoint → Bool
  /-- `c.isprintable()`. -/
  isPrintable : CodePoint → Bool
  not_printable : ∀ c, Surrogate c → isPrintable c = false
  /-- The nearest number to an integer within the limit. -/
  ofInt : Int → F
  /-- `float(s)`; `none` for a `ValueError`. -/
  ofText : PyStr → Option F
  ofText_numeral : ∀ t, Numeral t → (ofText t).isSome = true
  repr : F → PyStr
  repr_encodable : ∀ x, Encodable (repr x)
  isZero : F → Bool
  mul : F → F → F
  /-- `x / y` for a `y` that is not zero. -/
  div : F → F → F
  min : F → F → F
  /-- `round(x, 1)`. -/
  round1 : F → F

/-- The first integer that rounds to no finite number. -/
def floatLimit : Nat := 2 ^ 1024 - 2 ^ 970

/-- `float(n)` of an integer. -/
def toFloat {F : Type} (P : Platform F) (n : Int) : Except PyException F :=
  if n.natAbs < floatLimit then .ok (P.ofInt n) else .error .overflowError

theorem returns_toFloat {F : Type} {P : Platform F} {n : Int} :
    Returns (toFloat P n) ↔ n.natAbs < floatLimit := by
  unfold toFloat
  split
  · rename_i h
    exact iff_of_true (returns_ok _) h
  · rename_i h
    exact iff_of_false (not_returns_error _) h

/-- `float(s)` of a text. -/
def floatOf {F : Type} (P : Platform F) (s : PyStr) : Except PyException F :=
  match P.ofText s with
  | some x => .ok x
  | none => .error .valueError

theorem returns_floatOf {F : Type} {P : Platform F} {t : PyStr} (h : Numeral t) :
    Returns (floatOf P t) := by
  obtain ⟨x, hx⟩ := Option.isSome_iff_exists.mp (P.ofText_numeral t h)
  rw [floatOf, hx]
  exact returns_ok x

namespace Value

variable {F : Type} (P : Platform F)

mutual

/-- The integers in a value, at any depth. -/
def ints : Value F → List Int
  | int n => [n]
  | arr xs => intsList xs
  | obj kvs => intsEntries kvs
  | _ => []

def intsList : List (Value F) → List Int
  | [] => []
  | x :: xs => ints x ++ intsList xs

def intsEntries : List (PyStr × Value F) → List Int
  | [] => []
  | (_, x) :: kvs => ints x ++ intsEntries kvs

end

def Short (v : Value F) : Prop := ∀ n ∈ v.ints, n.natAbs < 10 ^ maxDigits

instance (v : Value F) : Decidable v.Short := inferInstanceAs (Decidable (∀ n ∈ v.ints, _))

/-- `bool(v)`. -/
def truthy : Value F → Bool
  | null => false
  | bool b => b
  | int n => n != 0
  | float x => !P.isZero x
  | str s => !s.isEmpty
  | arr xs => !xs.isEmpty
  | obj kvs => !kvs.isEmpty

/-- `v or w`. -/
def or (v w : Value F) : Value F := if v.truthy P then v else w

/-- `v == s` for a literal. -/
def isText (v : Value F) (s : String) : Bool :=
  match v with
  | str t => decide (t = lit s)
  | _ => false

def hex (width n : Nat) : String :=
  let digits := Nat.toDigits 16 n
  String.ofList (List.replicate (width - digits.length) '0' ++ digits)

/-- A character inside a quoted `repr`. -/
def reprChar (quote c : CodePoint) : PyStr :=
  if c = quote ∨ c = codePoint '\\' then [codePoint '\\', c]
  else if c = codePoint '\t' then lit "\\t"
  else if c = codePoint '\n' then lit "\\n"
  else if c = codePoint '\r' then lit "\\r"
  else if 0x20 ≤ c.val ∧ c.val < 0x7F then [c]
  else if 0x7F < c.val ∧ P.isPrintable c = true then [c]
  else if c.val < 0x100 then lit ("\\x" ++ hex 2 c.val)
  else if c.val < 0x10000 then lit ("\\u" ++ hex 4 c.val)
  else lit ("\\U" ++ hex 8 c.val)

/-- `repr` of a text: single quotes, unless it holds one and no double quote. -/
def reprStr (s : PyStr) : PyStr :=
  let quote := if codePoint '\'' ∈ s ∧ codePoint '"' ∉ s then codePoint '"' else codePoint '\''
  quote :: s.flatMap (reprChar P quote) ++ [quote]

mutual

/-- `repr(v)` of a value that can be written. -/
def repr : Value F → PyStr
  | null => lit "None"
  | bool true => lit "True"
  | bool false => lit "False"
  | int n => lit (toString n)
  | float x => P.repr x
  | str s => reprStr P s
  | arr xs => lit "[" ++ (lit ", ").intercalate (reprList xs) ++ lit "]"
  | obj kvs => lit "\x7b" ++ (lit ", ").intercalate (reprEntries kvs) ++ lit "\x7d"

def reprList : List (Value F) → List PyStr
  | [] => []
  | x :: xs => repr x :: reprList xs

def reprEntries : List (PyStr × Value F) → List PyStr
  | [] => []
  | (k, x) :: kvs => (reprStr P k ++ lit ": " ++ repr x) :: reprEntries kvs

end

def text : Value F → PyStr
  | str s => s
  | v => repr P v

/-- `str(v)`. -/
def toStr (v : Value F) : Except PyException PyStr :=
  if v.Short then .ok (v.text P) else .error .valueError

/-- `d.get(k)` of a dictionary, absent keys apart. -/
def lookup (kvs : List (PyStr × Value F)) (k : String) : Option (Value F) :=
  (kvs.find? fun kv => decide (kv.1 = lit k)).map (·.2)

/-- `d.get(k, default)` of a dictionary. -/
def getD (kvs : List (PyStr × Value F)) (k : String) (default : Value F) : Value F :=
  (lookup kvs k).getD default

/-- `v.get(k, default)`: only a dictionary has a `get`. -/
def get (v : Value F) (k : String) (default : Value F) : Except PyException (Value F) :=
  match v with
  | obj kvs => .ok (getD kvs k default)
  | _ => .error .attributeError

def entries : Value F → List (PyStr × Value F)
  | obj kvs => kvs
  | _ => []

/-- What a loop over a value meets. -/
def elements : Value F → List (Value F)
  | arr xs => xs
  | str s => s.map fun c => str [c]
  | obj kvs => kvs.map fun kv => str kv.1
  | _ => []

/-- A loop over the value begins. -/
def Iterable : Value F → Prop
  | arr _ => True
  | str _ => True
  | obj _ => True
  | _ => False

/-- `for x in v`. -/
def iterate (v : Value F) : Except PyException (List (Value F)) :=
  match v with
  | arr xs => .ok xs
  | str s => .ok (s.map fun c => str [c])
  | obj kvs => .ok (kvs.map fun kv => str kv.1)
  | _ => .error .typeError

def dicts (xs : List (Value F)) : List (List (PyStr × Value F)) := xs.filterMap fun
  | obj kvs => some kvs
  | _ => none

/-- A turn of a loop that skips what is no dictionary. -/
def eachDict {β : Type} (f : List (PyStr × Value F) → Except PyException (Option β)) :
    Value F → Except PyException (Option β)
  | obj kvs => f kvs
  | _ => .ok none

/-! ### What returns -/

def IsDict (v : Value F) : Prop := ∃ kvs, v = obj kvs

def IsStr (v : Value F) : Prop := ∃ s, v = str s

def DictOrFalsy (v : Value F) : Prop := v.truthy P = false ∨ v.IsDict

def IterOrFalsy (v : Value F) : Prop := v.truthy P = false ∨ v.Iterable

variable {P}

theorem returns_toStr {v : Value F} : Returns (v.toStr P) ↔ v.Short := by
  unfold toStr
  split
  · rename_i h
    exact iff_of_true (returns_ok _) h
  · rename_i h
    exact iff_of_false (not_returns_error _) h

variable {β : Type}

theorem returns_toStr_bind {v : Value F} {f : PyStr → Except PyException β} :
    Returns (v.toStr P >>= f) ↔ v.Short ∧ Returns (f (v.text P)) := by
  unfold toStr
  split
  · rename_i h
    exact (and_iff_right h).symm
  · rename_i h
    exact iff_of_false (not_returns_error _) fun hv => h hv.1

theorem returns_get_bind {v : Value F} {k : String} {default : Value F}
    {f : Value F → Except PyException β} :
    Returns (v.get k default >>= f) ↔ v.IsDict ∧ Returns (f (getD v.entries k default)) := by
  cases v with
  | obj kvs => exact (and_iff_right ⟨kvs, rfl⟩).symm
  | _ => exact iff_of_false (not_returns_error _) fun h => nomatch h.1

theorem returns_or_get_bind {v : Value F} {k : String} {default : Value F}
    {f : Value F → Except PyException β} :
    Returns ((v.or P (.obj [])).get k default >>= f) ↔
      v.DictOrFalsy P ∧ Returns (f (getD v.entries k default)) := by
  rw [returns_get_bind]
  unfold or
  split
  · rename_i h
    have hiff : v.DictOrFalsy P ↔ v.IsDict := or_iff_right (by simp [h])
    rw [hiff]
  · rename_i h
    have hfalse : v.truthy P = false := by simpa using h
    have hentries : v.entries = [] := by
      cases v with
      | obj kvs =>
        obtain rfl : kvs = [] := by simpa [truthy] using hfalse
        rfl
      | _ => rfl
    rw [hentries]
    exact and_congr_left fun _ => iff_of_true ⟨[], rfl⟩ (.inl hfalse)

theorem returns_or_iterate_bind {v : Value F} {f : List (Value F) → Except PyException β} :
    Returns ((v.or P (.arr [])).iterate >>= f) ↔ v.IterOrFalsy P ∧ Returns (f v.elements) := by
  unfold or
  split
  · rename_i h
    have hiff : v.IterOrFalsy P ↔ v.Iterable := or_iff_right (by simp [h])
    rw [hiff]
    cases v with
    | arr xs => exact (and_iff_right trivial).symm
    | str s => exact (and_iff_right trivial).symm
    | obj kvs => exact (and_iff_right trivial).symm
    | _ => exact iff_of_false (not_returns_error _) fun h => h.1
  · rename_i h
    have hfalse : v.truthy P = false := by simpa using h
    have helements : v.elements = [] := by
      cases v with
      | arr xs =>
        obtain rfl : xs = [] := by simpa [truthy] using hfalse
        rfl
      | str s =>
        obtain rfl : s = [] := by simpa [truthy] using hfalse
        rfl
      | obj kvs =>
        obtain rfl : kvs = [] := by simpa [truthy] using hfalse
        rfl
      | _ => rfl
    rw [helements]
    exact (and_iff_right (.inl hfalse)).symm

theorem returns_gather_eachDict {f : List (PyStr × Value F) → Except PyException (Option β)}
    {xs : List (Value F)} :
    Returns (gather (eachDict f) xs) ↔ ∀ kvs ∈ dicts xs, Returns (f kvs) := by
  rw [returns_gather]
  constructor
  · intro h kvs hkvs
    obtain ⟨x, hx, hsome⟩ := List.mem_filterMap.mp hkvs
    cases x with
    | obj kvs' =>
      obtain rfl := Option.some.inj hsome
      exact h _ hx
    | _ => cases hsome
  · intro h x hx
    cases x with
    | obj kvs => exact h kvs (List.mem_filterMap.mpr ⟨.obj kvs, hx, rfl⟩)
    | _ => exact returns_ok _

theorem short_or {v : Value F} {s : PyStr} : (v.or P (.str s)).Short ↔ v.Short := by
  unfold or
  split
  · rfl
  · rename_i h
    refine iff_of_true nofun ?_
    have hfalse : v.truthy P = false := by simpa using h
    cases v with
    | int n =>
      have hn : n = 0 := by simpa [truthy] using hfalse
      subst hn
      intro m hm
      obtain rfl := List.mem_singleton.mp hm
      exact Nat.pow_pos (by decide)
    | arr xs =>
      obtain rfl : xs = [] := by simpa [truthy] using hfalse
      exact nofun
    | obj kvs =>
      obtain rfl : kvs = [] := by simpa [truthy] using hfalse
      exact nofun
    | _ => exact nofun

/-! ### Surrogates in texts -/

theorem encodable_reprChar {quote : CodePoint} (hquote : ¬ Surrogate quote) (c : CodePoint) :
    Encodable (reprChar P quote c) := by
  have hbackslash : ¬ Surrogate (codePoint '\\') := not_surrogate_codePoint _
  unfold reprChar
  split
  · rename_i h
    rcases h with rfl | rfl
    · simp [hbackslash, hquote]
    · simp [hbackslash]
  · repeat' split
    all_goals first
      | exact encodable_lit _
      | skip
    · rename_i h
      refine encodable_cons.mpr ⟨fun hc => ?_, encodable_nil⟩
      have := hc.1
      omega
    · rename_i h
      refine encodable_cons.mpr ⟨fun hc => ?_, encodable_nil⟩
      rw [P.not_printable c hc] at h
      exact Bool.false_ne_true h.2

theorem encodable_reprStr (s : PyStr) : Encodable (reprStr P s) := by
  have hquote : ∀ q : Char, Encodable (codePoint q :: s.flatMap (reprChar P (codePoint q)) ++
      [codePoint q]) := by
    intro q
    have hq := not_surrogate_codePoint q
    simp only [List.cons_append, encodable_cons, encodable_append]
    refine ⟨hq, fun c hc => ?_, hq, encodable_nil⟩
    obtain ⟨d, -, hd⟩ := List.mem_flatMap.mp hc
    exact encodable_reprChar hq d c hd
  unfold reprStr
  simp only
  split
  · exact hquote _
  · exact hquote _

mutual

theorem encodable_repr : (v : Value F) → Encodable (repr P v)
  | null => encodable_lit _
  | bool true => encodable_lit _
  | bool false => encodable_lit _
  | int _ => encodable_lit _
  | float x => P.repr_encodable x
  | str s => encodable_reprStr s
  | arr xs => by
    rw [repr, encodable_append, encodable_append, encodable_intercalate (encodable_lit _)]
    exact ⟨⟨encodable_lit _, encodable_reprList xs⟩, encodable_lit _⟩
  | obj kvs => by
    rw [repr, encodable_append, encodable_append, encodable_intercalate (encodable_lit _)]
    exact ⟨⟨encodable_lit _, encodable_reprEntries kvs⟩, encodable_lit _⟩

theorem encodable_reprList : (xs : List (Value F)) → ∀ t ∈ reprList P xs, Encodable t
  | [] => nofun
  | x :: xs => List.forall_mem_cons.mpr ⟨encodable_repr x, encodable_reprList xs⟩

theorem encodable_reprEntries :
    (kvs : List (PyStr × Value F)) → ∀ t ∈ reprEntries P kvs, Encodable t
  | [] => nofun
  | (k, x) :: kvs => by
    refine List.forall_mem_cons.mpr ⟨?_, encodable_reprEntries kvs⟩
    rw [encodable_append, encodable_append]
    exact ⟨⟨encodable_reprStr k, encodable_lit _⟩, encodable_repr x⟩

end

/-- The value is no text with surrogates. -/
def Clean : Value F → Prop
  | str s => Encodable s
  | _ => True

theorem encodable_text {v : Value F} : Encodable (v.text P) ↔ v.Clean := by
  cases v with
  | str s => exact Iff.rfl
  | _ => exact iff_of_true (encodable_repr _) trivial

end Value

end Py
