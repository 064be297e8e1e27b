/-
Opngms/Json.lean

JSON values with the operations Python programs apply to them.

A decoded JSON value is a tree of Python built-ins, and code that handles one
without checking its shape raises wherever the shape is not the expected one:
`x.get(k)` on a list is an `AttributeError`, `x[k]` on a missing key a
`KeyError`, a loop over a number a `TypeError`.  The operations below return
these errors as values (`BuiltinError`), so that a model of such code has
exactly the raise sites of the code.

An object is an association list in insertion order; `Dict.get?` reads the
first entry of a key.  A float is kept as the text `repr` gives it, which
determines the value: nothing here computes with floats.
-/
import Mathlib.Data.List.Nodup

/-- The value of a JSON document as Python decodes it. -/
inductive Json where
  | null
  | bool (b : Bool)
  | int (n : Int)
  | float (repr : String)
  | str (s : String)
  | arr (xs : List Json)
  | obj (kvs : List (String × Json))

/-- The built-in exceptions that shape errors raise. -/
inductive BuiltinError where
  | keyError (key : String)
  | typeError
  | attributeError
  | valueError
  /-- A document is nested too deeply for the decoder. -/
  | recursionError
  deriving DecidableEq

/-! ### Programs that may raise -/

theorem except_bind_ok {ε α β : Type} {x : Except ε α} {f : α → Except ε β} {b : β}
    (h : x >>= f = .ok b) : ∃ a, x = .ok a ∧ f a = .ok b := by
  cases x with
  | error e => cases h
  | ok a => exact ⟨a, rfl, h⟩

@[simp] theorem except_ok_bind {ε α β : Type} (a : α) (f : α → Except ε β) :
    (Except.ok a >>= f) = f a := rfl

theorem mapError_ok {ε ε' α : Type} {g : ε → ε'} {x : Except ε α} {a : α}
    (h : x.mapError g = .ok a) : x = .ok a := by
  cases x with
  | error e => cases h
  | ok b => exact congrArg Except.ok (Except.ok.inj h)

/-- A `dict` with string keys. -/
abbrev Dict := List (String × Json)

namespace Dict

/-- `d.get(k)`, absent keys apart. -/
def get? (d : Dict) (k : String) : Option Json := (d.find? fun kv => kv.1 == k).map (·.2)

/-- `d.get(k, default)`. -/
def getD (d : Dict) (k : String) (default : Json) : Json := (d.get? k).getD default

/-- `{**d, k: v}`: an existing key keeps its place. -/
def set : Dict → String → Json → Dict
  | [], k, v => [(k, v)]
  | (k', v') :: d, k, v => if k' = k then (k, v) :: d else (k', v') :: set d k v

/-- `d` without the key `k`, as after `d.pop(k, None)`. -/
def pop (d : Dict) (k : String) : Dict := d.filter fun kv => kv.1 ≠ k

def keys (d : Dict) : List String := d.map (·.1)

/-- `d[k]`. -/
def item (d : Dict) (k : String) : Except BuiltinError Json :=
  match d.get? k with
  | some v => .ok v
  | none => .error (.keyError k)

@[simp] theorem get?_nil (k : String) : get? [] k = none := rfl

@[simp] theorem get?_cons (k' : String) (v : Json) (d : Dict) (k : String) :
    get? ((k', v) :: d) k = if k' = k then some v else get? d k := by
  by_cases h : k' = k <;> simp [get?, h]

@[simp] theorem get?_set (d : Dict) (k : String) (v : Json) (k' : String) :
    get? (set d k v) k' = if k = k' then some v else get? d k' := by
  induction d with
  | nil => simp [set]
  | cons kv d ih =>
    obtain ⟨l, u⟩ := kv
    by_cases hl : l = k
    · subst hl
      by_cases hk : l = k' <;> simp [set, hk]
    · rw [set, if_neg hl, get?_cons, get?_cons, ih]
      by_cases hk : l = k'
      · subst hk
        simp [Ne.symm hl]
      · simp [hk]

theorem get?_pop (d : Dict) (k k' : String) :
    (d.pop k).get? k' = if k = k' then none else d.get? k' := by
  induction d with
  | nil => simp [pop, get?]
  | cons kv d ih =>
    obtain ⟨l, v⟩ := kv
    rw [pop, List.filter_cons]
    by_cases hl : l = k
    · subst hl
      rw [if_neg (by simp), get?_cons]
      by_cases hk : l = k'
      · rw [if_pos hk] at ih ⊢
        exact ih
      · rw [if_neg hk] at ih ⊢
        rw [if_neg hk]
        exact ih
    · rw [if_pos (by simp [hl]), get?_cons, get?_cons]
      by_cases hk : l = k'
      · subst hk
        simp [Ne.symm hl]
      · rw [if_neg hk, if_neg hk]
        exact ih

theorem get?_isSome (d : Dict) (k : String) : (d.get? k).isSome = d.any fun kv => kv.1 == k := by
  induction d with
  | nil => rfl
  | cons kv d ih =>
    obtain ⟨l, v⟩ := kv
    rw [Dict.get?_cons, List.any_cons, ← ih]
    by_cases hl : l = k <;> simp [hl]

theorem mem_keys {d : Dict} {k : String} : k ∈ d.keys ↔ (d.get? k).isSome = true := by
  rw [get?_isSome, keys, List.mem_map, List.any_eq_true]
  simp

theorem mem_of_get? {d : Dict} {k : String} {v : Json} (h : d.get? k = some v) : (k, v) ∈ d := by
  obtain ⟨kv, hkv, rfl⟩ := Option.map_eq_some_iff.mp h
  have hkey : kv.1 = k := by simpa using List.find?_some hkv
  exact hkey ▸ List.mem_of_find?_eq_some hkv

theorem get?_of_mem {d : Dict} (hnodup : d.keys.Nodup) {kv : String × Json} (h : kv ∈ d) :
    d.get? kv.1 = some kv.2 := by
  induction d with
  | nil => cases h
  | cons kv' d ih =>
    obtain ⟨hnot, hnodup⟩ := List.nodup_cons.mp hnodup
    rw [get?_cons]
    rcases List.mem_cons.mp h with rfl | h
    · exact if_pos rfl
    · have hne : kv'.1 ≠ kv.1 := fun heq => hnot (List.mem_map.mpr ⟨kv, h, heq.symm⟩)
      rw [if_neg hne]
      exact ih hnodup h

theorem keys_set (d : Dict) (k : String) (v : Json) :
    (d.set k v).keys = if k ∈ d.keys then d.keys else d.keys ++ [k] := by
  induction d with
  | nil => rfl
  | cons kv d ih =>
    obtain ⟨k', v'⟩ := kv
    rw [set]
    by_cases hk : k' = k
    · subst hk
      simp [keys]
    · rw [if_neg hk]
      show k' :: keys (set d k v) = _
      have hmem : k ∈ keys ((k', v') :: d) ↔ k ∈ keys d := by
        simp [keys, Ne.symm hk]
      rw [ih]
      by_cases hin : k ∈ keys d
      · rw [if_pos hin, if_pos (hmem.mpr hin)]
        rfl
      · rw [if_neg hin, if_neg fun h => hin (hmem.mp h)]
        rfl

theorem nodup_set {d : Dict} (h : d.keys.Nodup) (k : String) (v : Json) :
    (d.set k v).keys.Nodup := by
  rw [keys_set]
  split
  · exact h
  · rename_i hk
    exact List.nodup_append.mpr ⟨h, List.nodup_singleton k, fun a ha b hb =>
      fun heq => hk (List.mem_singleton.mp hb ▸ heq ▸ ha)⟩

theorem mem_set {d : Dict} {k : String} {v : Json} {kv : String × Json} (h : kv ∈ set d k v) :
    kv = (k, v) ∨ kv ∈ d := by
  induction d with
  | nil => exact .inl (List.mem_singleton.mp h)
  | cons e d ih =>
    obtain ⟨k', v'⟩ := e
    rw [set] at h
    split at h
    · rcases List.mem_cons.mp h with rfl | h
      · exact .inl rfl
      · exact .inr (List.mem_cons_of_mem _ h)
    · rcases List.mem_cons.mp h with rfl | h
      · exact .inr List.mem_cons_self
      · rcases ih h with h | h
        · exact .inl h
        · exact .inr (List.mem_cons_of_mem _ h)

theorem set_ne_nil (d : Dict) (k : String) (v : Json) : set d k v ≠ [] := by
  cases d with
  | nil => simp [set]
  | cons e d =>
    rw [set]
    split <;> simp

end Dict

namespace Json

/-! ### Equality is decidable -/

mutual

def decEq : (a b : Json) → Decidable (a = b)
  | null, null => isTrue rfl
  | bool a, bool b => decidable_of_iff (a = b) (by simp)
  | int a, int b => decidable_of_iff (a = b) (by simp)
  | float a, float b => decidable_of_iff (a = b) (by simp)
  | str a, str b => decidable_of_iff (a = b) (by simp)
  | arr xs, arr ys =>
    match decEqList xs ys with
    | isTrue h => isTrue (by rw [h])
    | isFalse h => isFalse (by simpa using h)
  | obj xs, obj ys =>
    match decEqEntries xs ys with
    | isTrue h => isTrue (by rw [h])
    | isFalse h => isFalse (by simpa using h)
  | null, bool _ | null, int _ | null, float _ | null, str _ | null, arr _ | null, obj _
  | bool _, null | bool _, int _ | bool _, float _ | bool _, str _ | bool _, arr _
  | bool _, obj _ | int _, null | int _, bool _ | int _, float _ | int _, str _
  | int _, arr _ | int _, obj _ | float _, null | float _, bool _ | float _, int _
  | float _, str _ | float _, arr _ | float _, obj _ | str _, null | str _, bool _
  | str _, int _ | str _, float _ | str _, arr _ | str _, obj _ | arr _, null
  | arr _, bool _ | arr _, int _ | arr _, float _ | arr _, str _ | arr _, obj _
  | obj _, null | obj _, bool _ | obj _, int _ | obj _, float _ | obj _, str _
  | obj _, arr _ => isFalse nofun

def decEqList : (xs ys : List Json) → Decidable (xs = ys)
  | [], [] => isTrue rfl
  | [], _ :: _ => isFalse nofun
  | _ :: _, [] => isFalse nofun
  | x :: xs, y :: ys =>
    match decEq x y, decEqList xs ys with
    | isTrue h, isTrue h' => isTrue (by rw [h, h'])
    | isFalse h, _ => isFalse fun e => h (List.cons.inj e).1
    | _, isFalse h' => isFalse fun e => h' (List.cons.inj e).2

def decEqEntries : (xs ys : List (String × Json)) → Decidable (xs = ys)
  | [], [] => isTrue rfl
  | [], _ :: _ => isFalse nofun
  | _ :: _, [] => isFalse nofun
  | (k, x) :: xs, (l, y) :: ys =>
    if hk : k = l then
      match decEq x y, decEqEntries xs ys with
      | isTrue h, isTrue h' => isTrue (by rw [hk, h, h'])
      | isFalse h, _ => isFalse fun e => h (Prod.mk.inj (List.cons.inj e).1).2
      | _, isFalse h' => isFalse fun e => h' (List.cons.inj e).2
    else isFalse fun e => hk (Prod.mk.inj (List.cons.inj e).1).1

end

instance : DecidableEq Json := decEq

/-! ### Columns -/

/-- A text without a zero character: what PostgreSQL can store in a text or
`jsonb` column. -/
def storableText (s : String) : Bool := s.toList.all fun c => c != '\x00'

mutual

/-- Whether a `jsonb` column takes the value: its texts are storable, and its
floats are numbers. -/
def storable : Json → Bool
  | float r => r != "nan" && r != "inf" && r != "-inf"
  | str s => storableText s
  | arr xs => storableList xs
  | obj kvs => storableEntries kvs
  | null | bool _ | int _ => true

def storableList : List Json → Bool
  | [] => true
  | x :: xs => storable x && storableList xs

def storableEntries : List (String × Json) → Bool
  | [] => true
  | (k, v) :: kvs => storableText k && storable v && storableEntries kvs

end

@[simp] theorem storable_null : storable null = true := rfl

@[simp] theorem storable_bool (b : Bool) : storable (bool b) = true := rfl

@[simp] theorem storable_str (s : String) : storable (str s) = storableText s := rfl

@[simp] theorem storable_arr (xs : List Json) : storable (arr xs) = xs.all storable := by
  show storableList xs = _
  induction xs with
  | nil => rfl
  | cons x xs ih => rw [storableList, ih, List.all_cons]

@[simp] theorem storable_obj (kvs : Dict) :
    storable (obj kvs) = kvs.all fun kv => storableText kv.1 && kv.2.storable := by
  show storableEntries kvs = _
  induction kvs with
  | nil => rfl
  | cons kv kvs ih => rw [storableEntries, ih, List.all_cons]

/-! ### Truth and text -/

/-- `bool(x)`. -/
def truthy : Json → Bool
  | null => false
  | bool b => b
  | int n => n != 0
  | float r => r != "0.0" && r != "-0.0"
  | str s => s != ""
  | arr xs => !xs.isEmpty
  | obj kvs => !kvs.isEmpty

mutual

/-- `x == y` for two decoded values: a boolean equals the integer of its
value, and so does a float with an integral value; lists are compared element
by element, dicts key by key.  Two floats are compared by their texts, which is
`==` but for the zeros and for `nan`, of which no program here holds two objects;
a float from 1e16 on, written with an exponent, is told from the integers. -/
def pyEq : Json → Json → Bool
  | bool a, int n | int n, bool a => n == if a then 1 else 0
  | float r, int n | int n, float r => r == toString n ++ ".0"
  | float r, bool a | bool a, float r => r == if a then "1.0" else "0.0"
  | arr xs, arr ys => pyEqList xs ys
  | obj xs, obj ys => pyEqEntries [] xs ys && ys.all fun kv => xs.any fun kv' => kv'.1 == kv.1
  | a, b => decide (a = b)

def pyEqList : List Json → List Json → Bool
  | [], [] => true
  | x :: xs, y :: ys => pyEq x y && pyEqList xs ys
  | _, _ => false

/-- What the first dict has under the keys that were not seen yet, the second
one has. -/
def pyEqEntries (seen : List String) : List (String × Json) → List (String × Json) → Bool
  | [], _ => true
  | (k, x) :: xs, ys =>
    (seen.contains k || match Dict.get? ys k with
      | some y => pyEq x y
      | none => false) && pyEqEntries (k :: seen) xs ys

end

def hexDigit (n : Nat) : Char := "0123456789abcdef".toList.getD n '0'

/-- A character inside a quoted `repr`; characters beyond ASCII stand for
themselves. -/
def reprChar (quote c : Char) : List Char :=
  if c = quote then ['\\', quote]
  else if c = '\\' then ['\\', '\\']
  else if c = '\n' then ['\\', 'n']
  else if c = '\r' then ['\\', 'r']
  else if c = '\t' then ['\\', 't']
  else if c.toNat < 32 ∨ c.toNat = 127 then
    ['\\', 'x', hexDigit (c.toNat / 16), hexDigit (c.toNat % 16)]
  else [c]

/-- `repr` of a string: single quotes, unless it holds one and no double
quote. -/
def reprStr (s : String) : String :=
  let quote := if '\'' ∈ s.toList ∧ '"' ∉ s.toList then '"' else '\''
  String.ofList (quote :: s.toList.flatMap (reprChar quote) ++ [quote])

mutual

/-- `repr(x)`. -/
def repr : Json → String
  | null => "None"
  | bool true => "True"
  | bool false => "False"
  | int n => toString n
  | float r => r
  | str s => reprStr s
  | arr xs => "[" ++ ", ".intercalate (reprList xs) ++ "]"
  | obj kvs => "\x7b" ++ ", ".intercalate (reprEntries kvs) ++ "\x7d"

/-- The `repr`s of a list's elements. -/
def reprList : List Json → List String
  | [] => []
  | x :: xs => repr x :: reprList xs

/-- The `repr`s of a dictionary's entries. -/
def reprEntries : List (String × Json) → List String
  | [] => []
  | (k, x) :: kvs => (reprStr k ++ ": " ++ repr x) :: reprEntries kvs

end

/-- `str(x)`. -/
def pyStr : Json → String
  | str s => s
  | j => repr j

/-- `s.lower()` for comparison with an ASCII word: of the letters beyond ASCII only the
Kelvin sign becomes one, and no word that is compared has a k. -/
def lower (s : String) : String := String.ofList (s.toList.map Char.toLower)

@[simp] theorem pyStr_str (s : String) : pyStr (str s) = s := rfl

@[simp] theorem truthy_str (s : String) : truthy (str s) = (s != "") := rfl

@[simp] theorem truthy_null : truthy null = false := rfl

@[simp] theorem pyEq_str (j : Json) (s : String) : pyEq j (str s) = decide (j = str s) := by
  cases j <;> rfl

theorem pyEq_str_left (s : String) (j : Json) : pyEq (str s) j = decide (str s = j) := by
  cases j <;> rfl

/-! ### Equality of lists and dicts -/

theorem pyEqEntries_iff (seen : List String) (xs ys : Dict) :
    pyEqEntries seen xs ys = true ↔ ∀ k ∉ seen, ∀ x, Dict.get? xs k = some x →
      ∃ y, Dict.get? ys k = some y ∧ pyEq x y = true := by
  induction xs generalizing seen with
  | nil => simp [pyEqEntries]
  | cons kv xs ih =>
    obtain ⟨l, v⟩ := kv
    rw [pyEqEntries, Bool.and_eq_true, ih, Bool.or_eq_true, List.contains_iff_mem]
    constructor
    · rintro ⟨hv, hrest⟩ k hk x hx
      rw [Dict.get?_cons] at hx
      split at hx
      · rename_i hlk
        subst hlk
        obtain rfl := Option.some.inj hx
        have hv := hv.resolve_left hk
        cases hy : Dict.get? ys l with
        | none => simp [hy] at hv
        | some y => exact ⟨y, rfl, by simpa [hy] using hv⟩
      · rename_i hlk
        exact hrest k (by simp [Ne.symm hlk, hk]) x hx
    · intro h
      refine ⟨?_, fun k hk x hx => ?_⟩
      · by_cases hl : l ∈ seen
        · exact .inl hl
        · obtain ⟨y, hy, hxy⟩ := h l hl v (by simp)
          exact .inr (by simpa [hy] using hxy)
      · rw [List.mem_cons, not_or] at hk
        exact h k hk.2 x (by rw [Dict.get?_cons, if_neg (Ne.symm hk.1), hx])

/-- Two dicts are equal if they have the same keys with equal values. -/
theorem pyEq_obj_iff (xs ys : Dict) :
    pyEq (obj xs) (obj ys) = true ↔
      ∀ k, Option.Rel (fun x y => pyEq x y = true) (Dict.get? xs k) (Dict.get? ys k) := by
  rw [pyEq, Bool.and_eq_true, pyEqEntries_iff, List.all_eq_true]
  constructor
  · rintro ⟨hxs, hys⟩ k
    cases hx : Dict.get? xs k with
    | some x =>
      obtain ⟨y, hy, hxy⟩ := hxs k List.not_mem_nil x hx
      rw [hy]
      exact .some hxy
    | none =>
      cases hy : Dict.get? ys k with
      | none => exact .none
      | some y =>
        obtain ⟨kv, hkv, rfl⟩ := List.mem_map.mp (Dict.mem_keys.2 (by rw [hy]; rfl))
        have hsome := hys kv hkv
        rw [← Dict.get?_isSome xs, hx] at hsome
        cases hsome
  · intro h
    refine ⟨fun k _ x hx => ?_, fun kv hkv => ?_⟩
    · have hk := h k
      rw [hx] at hk
      cases hy : Dict.get? ys k with
      | none =>
        rw [hy] at hk
        cases hk
      | some y =>
        rw [hy] at hk
        cases hk with
        | some hxy => exact ⟨y, rfl, hxy⟩
    · have hk := h kv.1
      have hsome := Dict.mem_keys.1 (List.mem_map_of_mem hkv)
      rw [← Dict.get?_isSome xs]
      cases hx : Dict.get? xs kv.1 with
      | some x => rfl
      | none =>
        rw [hx] at hk
        cases hy : Dict.get? ys kv.1 with
        | none =>
          rw [hy] at hsome
          cases hsome
        | some y =>
          rw [hy] at hk
          cases hk

mutual

theorem pyEq_refl : (a : Json) → pyEq a a = true
  | null | bool _ | int _ | float _ | str _ => by simp [pyEq]
  | arr xs => by rw [pyEq, pyEqList_refl xs]
  | obj xs => by
    rw [pyEq_obj_iff]
    intro k
    cases h : Dict.get? xs k with
    | none => exact .none
    | some x => exact .some (get?_pyEq_refl xs k x h)

theorem pyEqList_refl : (xs : List Json) → pyEqList xs xs = true
  | [] => rfl
  | x :: xs => by rw [pyEqList, pyEq_refl x, pyEqList_refl xs, Bool.and_self]

theorem get?_pyEq_refl : (xs : List (String × Json)) → (k : String) → (x : Json) →
    Dict.get? xs k = some x → pyEq x x = true
  | [], _, _, h => nomatch h
  | (l, v) :: xs, k, x, h => by
    rw [Dict.get?_cons] at h
    split at h
    · obtain rfl := Option.some.inj h
      exact pyEq_refl v
    · exact get?_pyEq_refl xs k x h

end

mutual

theorem pyEq_comm : (a b : Json) → pyEq a b = pyEq b a
  | null, b | bool _, b | int _, b | float _, b | str _, b => by
    cases b <;> simp [pyEq, eq_comm]
  | arr xs, b => by
    cases b with
    | arr ys => rw [pyEq, pyEq, pyEqList_comm xs ys]
    | _ => simp [pyEq]
  | obj xs, b => by
    cases b with
    | obj ys =>
      rw [Bool.eq_iff_iff, pyEq_obj_iff, pyEq_obj_iff]
      apply forall_congr'
      intro k
      cases h : Dict.get? xs k with
      | none => cases Dict.get? ys k <;> simp
      | some x =>
        cases Dict.get? ys k with
        | none => simp
        | some y => rw [Option.rel_some_some, Option.rel_some_some, get?_pyEq_comm xs k x h y]
    | _ => simp [pyEq]

theorem pyEqList_comm : (xs ys : List Json) → pyEqList xs ys = pyEqList ys xs
  | [], [] | [], _ :: _ | _ :: _, [] => rfl
  | x :: xs, y :: ys => by rw [pyEqList, pyEqList, pyEq_comm x y, pyEqList_comm xs ys]

theorem get?_pyEq_comm : (xs : List (String × Json)) → (k : String) → (x : Json) →
    Dict.get? xs k = some x → (y : Json) → pyEq x y = pyEq y x
  | [], _, _, h, _ => nomatch h
  | (l, v) :: xs, k, x, h, y => by
    rw [Dict.get?_cons] at h
    split at h
    · obtain rfl := Option.some.inj h
      exact pyEq_comm v y
    · exact get?_pyEq_comm xs k x h y

end

end Json

namespace Dict

/-- Two values, or two absent ones, that Python finds equal. -/
def agree : Option Json → Option Json → Bool
  | none, none => true
  | some u, some v => Json.pyEq u v
  | _, _ => false

/-- `a == b` for two dicts. -/
def sameDict (a b : Dict) : Bool := (a.keys ++ b.keys).all fun k => agree (a.get? k) (b.get? k)

theorem agree_refl (v : Option Json) : agree v v = true := by
  cases v with
  | none => rfl
  | some v => exact Json.pyEq_refl v

theorem get?_eq_none {d : Dict} {k : String} (h : k ∉ d.keys) : d.get? k = none := by
  rw [mem_keys] at h
  exact Option.not_isSome_iff_eq_none.mp h

theorem agree_of_same {a b : Dict} (h : sameDict a b = true) (k : String) :
    agree (a.get? k) (b.get? k) = true := by
  by_cases hk : k ∈ a.keys ++ b.keys
  · exact List.all_eq_true.mp h k hk
  · rw [List.mem_append, not_or] at hk
    rw [get?_eq_none hk.1, get?_eq_none hk.2]
    rfl

end Dict

namespace Json

/-! ### Operations that raise on the wrong shape -/

/-- `x.get(k, default)`: only a `dict` has a `get`. -/
def attrGet (j : Json) (k : String) (default : Json) : Except BuiltinError Json :=
  match j with
  | obj kvs => .ok (Dict.getD kvs k default)
  | _ => .error .attributeError

/-- `x[k]` with a string key. -/
def subscript (j : Json) (k : String) : Except BuiltinError Json :=
  match j with
  | obj kvs => Dict.item kvs k
  | _ => .error .typeError

/-- `x.items()`. -/
def items (j : Json) : Except BuiltinError Dict :=
  match j with
  | obj kvs => .ok kvs
  | _ => .error .attributeError

/-- `for y in x`: a string yields its characters, a `dict` its keys. -/
def iterate (j : Json) : Except BuiltinError (List Json) :=
  match j with
  | arr xs => .ok xs
  | str s => .ok (s.toList.map fun c => str (String.ofList [c]))
  | obj kvs => .ok ((Dict.keys kvs).map str)
  | _ => .error .typeError

/-- The text of `x` as a key of an encoded object; lists and dictionaries
cannot be keys. -/
def asKey (j : Json) : Except BuiltinError String :=
  match j with
  | str s => .ok s
  | null => .ok "null"
  | bool b => .ok (if b then "true" else "false")
  | int n => .ok (toString n)
  | float r => .ok r
  | arr _ | obj _ => .error .typeError

/-- `x or default`. -/
def orElse (j default : Json) : Json := if j.truthy then j else default

theorem orElse_arr (xs : List Json) : (arr xs).orElse (.arr []) = .arr xs := by
  cases xs <;> rfl

theorem orElse_obj (kvs : Dict) : (obj kvs).orElse (.obj []) = .obj kvs := by
  cases kvs <;> rfl

/-- The strings of a list that is to be joined: `sep.join(xs)` raises unless
every element is one. -/
def strings : List Json → Except BuiltinError (List String)
  | [] => .ok []
  | str s :: xs => do
    let rest ← strings xs
    return s :: rest
  | _ :: _ => .error .typeError

end Json
