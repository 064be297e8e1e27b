/-
Opngms/Scalars.lean

What a partial `set` changes.

`_unflatten` turns a map of dotted keys into a nested object.  Which leaves the
object has depends on the keys alone: **`unflatten_cases`** says that maps with
the same keys all fail, or all assign the same scalars, each the value of its
own key.
-/
import Opngms.Appliance

namespace Opngms

open Appliance

theorem splitDots_injective : Function.Injective splitDots := by
  intro a b h
  have hchars : a.toList.splitOn '.' = b.toList.splitOn '.' :=
    List.map_injective_iff.mpr (fun _ _ => String.ofList_injective) h
  have hjoin : ∀ cs : List Char, ['.'].intercalate (cs.splitOn '.') = cs :=
    fun cs => List.intercalate_splitOn '.'
  apply String.toList_injective
  rw [← hjoin a.toList, hchars, hjoin]

theorem splitDots_concat (k : String) :
    (splitDots k).dropLast ++ [(splitDots k).getLastD ""] = splitDots k := by
  have hne : splitDots k ≠ [] := by simp [splitDots, List.splitOn_ne_nil]
  rw [List.getLastD_eq_getLast?, List.getLast?_eq_some_getLast hne, Option.getD_some]
  exact List.dropLast_append_getLast hne

/-! ### Renaming the values -/

mutual

/-- The value with every string in it replaced, lists apart. -/
def mapStr (f : String → String) : Json → Json
  | .null => .null
  | .bool b => .bool b
  | .int n => .int n
  | .float r => .float r
  | .str s => .str (f s)
  | .arr xs => .arr xs
  | .obj kvs => .obj (mapEntries f kvs)

/-- `mapStr` on the values of an object. -/
def mapEntries (f : String → String) : List (String × Json) → List (String × Json)
  | [] => []
  | (k, v) :: kvs => (k, mapStr f v) :: mapEntries f kvs

end

section Rename

variable (f : String → String)

theorem get?_mapEntries (d : Dict) (k : String) :
    Dict.get? (mapEntries f d) k = (Dict.get? d k).map (mapStr f) := by
  induction d with
  | nil => rfl
  | cons kv d ih =>
    obtain ⟨k', v⟩ := kv
    rw [mapEntries, Dict.get?_cons, Dict.get?_cons, ih]
    split <;> rfl

theorem set_mapEntries (d : Dict) (k : String) (v : Json) :
    Dict.set (mapEntries f d) k (mapStr f v) = mapEntries f (Dict.set d k v) := by
  induction d with
  | nil => rfl
  | cons kv d ih =>
    obtain ⟨k', v'⟩ := kv
    rw [mapEntries, Dict.set, Dict.set, ih]
    split <;> rfl

theorem unflattenInto_mapEntries (parts : List String) (last : String) (v : Json) (node : Dict) :
    unflattenInto parts last (mapStr f v) (mapEntries f node) =
      (unflattenInto parts last v node).map (mapEntries f) := by
  induction parts generalizing node with
  | nil => exact congrArg Except.ok (set_mapEntries f node last v)
  | cons p parts ih =>
    rw [unflattenInto, unflattenInto, get?_mapEntries]
    have hchild : ∀ kvs : Dict,
        (do
          let child ← unflattenInto parts last (mapStr f v) (mapEntries f kvs)
          return Dict.set (mapEntries f node) p (.obj child)) =
        (do
          let child ← unflattenInto parts last v kvs
          return Dict.set node p (.obj child)).map (mapEntries f) := by
      intro kvs
      rw [ih]
      cases unflattenInto parts last v kvs with
      | error e => rfl
      | ok child => exact congrArg Except.ok (set_mapEntries f node p (.obj child))
    rcases Dict.get? node p with - | w
    · exact hchild []
    · cases w with
      | obj kvs => exact hchild kvs
      | null => rfl
      | bool b => rfl
      | int n => rfl
      | float r => rfl
      | str s => rfl
      | arr xs => rfl

theorem unflatten_mapEntries (flat : Dict) :
    unflatten (mapEntries f flat) = (unflatten flat).map (mapEntries f) := by
  have hfold : ∀ out : Dict,
      (mapEntries f flat).foldlM (fun out kv =>
        unflattenInto (splitDots kv.1).dropLast ((splitDots kv.1).getLastD "") kv.2 out)
          (mapEntries f out) =
      (flat.foldlM (fun out kv =>
        unflattenInto (splitDots kv.1).dropLast ((splitDots kv.1).getLastD "") kv.2 out) out).map
          (mapEntries f) := by
    induction flat with
    | nil => exact fun _ => rfl
    | cons kv flat ih =>
      obtain ⟨k, v⟩ := kv
      intro out
      rw [mapEntries, List.foldlM_cons, List.foldlM_cons, unflattenInto_mapEntries]
      cases unflattenInto (splitDots k).dropLast ((splitDots k).getLastD "") v out with
      | error e => rfl
      | ok out' => exact ih out'
  exact hfold []

theorem leafAt_mapStr (j : Json) (p : List String) :
    leafAt (mapStr f j) p = (leafAt j p).map (mapStr f) := by
  induction p generalizing j with
  | nil => cases j <;> rfl
  | cons q p ih =>
    cases j with
    | obj kvs =>
      rw [mapStr, leafAt, leafAt, get?_mapEntries]
      cases Dict.get? kvs q with
      | none => rfl
      | some v => exact ih v
    | null => rfl
    | bool b => rfl
    | int n => rfl
    | float r => rfl
    | str s => rfl
    | arr xs => rfl

end Rename

/-! ### The leaves of a nested map -/

theorem leafAt_obj_cons (kvs : Dict) (q : String) (p : List String) :
    leafAt (.obj kvs) (q :: p) = (Dict.get? kvs q).bind fun v => leafAt v p := by
  rw [leafAt]
  cases Dict.get? kvs q <;> rfl

/-- One assignment adds one leaf at most. -/
theorem leafAt_unflattenInto {parts : List String} {last s : String} {node node' : Dict}
    (h : unflattenInto parts last (.str s) node = .ok node') {p : List String} {v : Json}
    (hv : leafAt (.obj node') p = some v) :
    (v = .str s ∧ p = parts ++ [last]) ∨ leafAt (.obj node) p = some v := by
  induction parts generalizing node node' p with
  | nil =>
    obtain rfl := Except.ok.inj h
    cases p with
    | nil => cases hv
    | cons q p =>
      rw [leafAt_obj_cons, Dict.get?_set] at hv
      by_cases hq : last = q
      · rw [if_pos hq] at hv
        cases p with
        | nil => exact .inl ⟨(Option.some.inj hv).symm, by rw [hq]; rfl⟩
        | cons q' p => cases hv
      · rw [if_neg hq] at hv
        exact .inr ((leafAt_obj_cons node q p).trans hv)
  | cons part parts ih =>
    -- below `part` stands what the recursion makes of `kvs`, the object that was there
    have hstep : ∀ kvs child : Dict, unflattenInto parts last (.str s) kvs = .ok child →
        node' = Dict.set node part (.obj child) →
        (∀ p w, leafAt (.obj kvs) p = some w → leafAt (.obj node) (part :: p) = some w) →
        (v = .str s ∧ p = part :: parts ++ [last]) ∨ leafAt (.obj node) p = some v := by
      rintro kvs child hchild rfl hold
      cases p with
      | nil => cases hv
      | cons q p =>
        rw [leafAt_obj_cons, Dict.get?_set] at hv
        by_cases hq : part = q
        · subst hq
          rw [if_pos rfl] at hv
          rcases ih hchild hv with ⟨hs, hp⟩ | hv
          · exact .inl ⟨hs, by rw [hp]; rfl⟩
          · exact .inr (hold p v hv)
        · rw [if_neg hq] at hv
          exact .inr ((leafAt_obj_cons node q p).trans hv)
    rw [unflattenInto] at h
    cases hg : Dict.get? node part with
    | none =>
      rw [hg] at h
      obtain ⟨child, hchild, h⟩ := except_bind_ok h
      refine hstep [] child hchild (Except.ok.inj h).symm fun p w hw => ?_
      cases p <;> cases hw
    | some w =>
      rw [hg] at h
      cases w with
      | obj kvs =>
        obtain ⟨child, hchild, h⟩ := except_bind_ok h
        refine hstep kvs child hchild (Except.ok.inj h).symm fun p w hw => ?_
        rw [leafAt_obj_cons, hg]
        exact hw
      | null => cases h
      | bool b => cases h
      | int n => cases h
      | float r => cases h
      | str s => cases h
      | arr xs => cases h

def labels (keys : List String) : Dict := strDict (keys.map fun k => (k, k))

theorem mapEntries_labels (keys : List String) (g : String → String) :
    mapEntries g (labels keys) = strDict (keys.map fun k => (k, g k)) := by
  induction keys with
  | nil => rfl
  | cons k keys ih => exact congrArg ((k, .str (g k)) :: ·) ih

theorem leafAt_labels {keys : List String} {d : Dict} (h : unflatten (labels keys) = .ok d)
    {p : List String} {v : Json} (hv : leafAt (.obj d) p = some v) :
    ∃ k, v = .str k ∧ p = splitDots k := by
  have hfold : ∀ out : Dict,
      (∀ p v, leafAt (.obj out) p = some v → ∃ k, v = .str k ∧ p = splitDots k) →
      ∀ d, (labels keys).foldlM (fun out kv =>
        unflattenInto (splitDots kv.1).dropLast ((splitDots kv.1).getLastD "") kv.2 out) out =
          .ok d →
      ∀ p v, leafAt (.obj d) p = some v → ∃ k, v = .str k ∧ p = splitDots k := by
    clear h
    induction keys with
    | nil =>
      intro out hout d h
      obtain rfl := Except.ok.inj h
      exact hout
    | cons k keys ih =>
      intro out hout d h
      obtain ⟨out', hone, h⟩ := except_bind_ok h
      refine ih out' (fun p v hv => ?_) d h
      rcases leafAt_unflattenInto hone hv with ⟨rfl, rfl⟩ | hv
      · exact ⟨k, rfl, splitDots_concat k⟩
      · exact hout p v hv
  refine hfold [] (fun p v hv => ?_) d h p v hv
  cases p <;> cases hv

/-- **What a map of dotted keys assigns depends on its keys alone**: maps with
the same keys are all refused, or all assign the scalars of one set, each the
value of its own key. -/
theorem unflatten_cases (keys : List String) :
    (∃ e, ∀ g : String → String, unflatten (strDict (keys.map fun k => (k, g k))) = .error e) ∨
    ∃ L : String → Prop, ∀ g : String → String, ∃ d,
      unflatten (strDict (keys.map fun k => (k, g k))) = .ok d ∧
      ∀ (A : Appliance) (scalars : String → String) (k : String),
        (L k → A.assign scalars (.obj d) k = g k) ∧
        (¬ L k → A.assign scalars (.obj d) k = scalars k) := by
  cases hd : unflatten (labels keys) with
  | error e =>
    refine .inl ⟨e, fun g => ?_⟩
    rw [← mapEntries_labels, unflatten_mapEntries, hd]
    rfl
  | ok d =>
    refine .inr ⟨fun k => (leafAt (.obj d) (splitDots k)).isSome, fun g => ⟨mapEntries g d, ?_, ?_⟩⟩
    · rw [← mapEntries_labels, unflatten_mapEntries, hd]
      rfl
    · intro A scalars k
      have hleaf : leafAt (.obj (mapEntries g d)) (splitDots k) =
          (leafAt (.obj d) (splitDots k)).map (mapStr g) := leafAt_mapStr g (.obj d) (splitDots k)
      rw [assign, hleaf]
      cases hv : leafAt (.obj d) (splitDots k) with
      | none =>
        have hnot : (leafAt (.obj d) (splitDots k)).isSome = false := congrArg Option.isSome hv
        exact ⟨fun h => absurd (hnot.symm.trans h) Bool.false_ne_true, fun _ => rfl⟩
      | some v =>
        obtain ⟨k', rfl, hk⟩ := leafAt_labels hd hv
        obtain rfl := splitDots_injective hk
        exact ⟨fun _ => A.text_str (g k), fun h => absurd (congrArg Option.isSome hv) h⟩

end Opngms
