/-
Opngms/EditRoundTrip.lean

What the editor reads back after a save is what it sent.

`_unflatten` (connectors/opnsense/client.py) grows a tree from dotted paths, and
`flatten_values` (services/catalog_live.py) walks a tree and joins the keys again.  A tree
is `Proper` if it has texts at its leaves, no empty container and no key that the walk could
misread; then its leaves say all of it (`pyEq_of_leaves`), and every container has one.
Where no path is a prefix of another, an assignment meets neither a leaf on its way nor a
container at its end, so it adds its leaf and keeps the others
(`unflattenInto_spec`).

Main result: **`edit_round_trip`**.
-/
import Opngms.LiveValues
import Opngms.Scalars

namespace Opngms

namespace LiveValues

open Appliance

/-! ### Proper trees -/

def Segment (key : String) : Prop := key ≠ "" ∧ key ≠ "selected"

/-- A tree of containers with texts at its leaves. -/
inductive Proper : Json → Prop
  | text (s : String) : Proper (.str s)
  | container {kvs : Dict} : kvs ≠ [] → kvs.keys.Nodup → (∀ kv ∈ kvs, Segment kv.1) →
      (∀ kv ∈ kvs, Proper kv.2) → Proper (.obj kvs)

/-- The top of a tree: a container that may be empty. -/
structure ProperDict (kvs : Dict) : Prop where
  nodup : kvs.keys.Nodup
  segments : ∀ kv ∈ kvs, Segment kv.1
  proper : ∀ kv ∈ kvs, Proper kv.2

theorem properDict_nil : ProperDict [] := by
  constructor
  · exact List.nodup_nil
  · intro kv hkv
    cases hkv
  · intro kv hkv
    cases hkv

theorem ProperDict.container {kvs : Dict} (h : ProperDict kvs) (hne : kvs ≠ []) :
    Proper (.obj kvs) :=
  .container hne h.nodup h.segments h.proper

theorem ProperDict.get {kvs : Dict} (h : ProperDict kvs) {k : String} {v : Json}
    (hv : Dict.get? kvs k = some v) : Proper v :=
  h.proper _ (Dict.mem_of_get? hv)

theorem ProperDict.set {kvs : Dict} (h : ProperDict kvs) {k : String} (hk : Segment k) {v : Json}
    (hv : Proper v) : ProperDict (Dict.set kvs k v) := by
  constructor
  · exact Dict.nodup_set h.nodup k v
  · intro kv hkv
    rcases Dict.mem_set hkv with rfl | hkv
    · exact hk
    · exact h.segments kv hkv
  · intro kv hkv
    rcases Dict.mem_set hkv with rfl | hkv
    · exact hv
    · exact h.proper kv hkv

theorem Proper.exists_leaf {v : Json} (h : Proper v) : ∃ p s, leafAt v p = some (.str s) := by
  induction h with
  | text s => exact ⟨[], s, rfl⟩
  | @container kvs hne hnodup _ _ ih =>
    obtain ⟨kv, hkv⟩ := List.exists_mem_of_ne_nil kvs hne
    obtain ⟨p, s, hp⟩ := ih kv hkv
    refine ⟨kv.1 :: p, s, ?_⟩
    rw [leafAt_obj_cons, Dict.get?_of_mem hnodup hkv, Option.bind_some, hp]

theorem Proper.not_option {v : Json} (h : Proper v) : isOptionDict v = false := by
  cases h with
  | text s => rfl
  | @container kvs hne _ _ hproper =>
    cases kvs with
    | nil => exact absurd rfl hne
    | cons kv kvs =>
      have hkv := hproper kv List.mem_cons_self
      obtain ⟨k, v⟩ := kv
      -- the first value has no key `selected`
      rw [isOptionDict, List.all_cons, Bool.and_eq_false_iff, Bool.and_eq_false_iff]
      refine .inr (.inl ?_)
      cases hkv with
      | text s => rfl
      | @container o _ _ hsegments _ =>
        show (Dict.get? o "selected").isSome = false
        rw [Bool.eq_false_iff, ne_eq, ← Dict.mem_keys]
        intro hmem
        obtain ⟨kv', hkv', heq⟩ := List.mem_map.mp hmem
        exact (hsegments kv' hkv').2 heq

theorem Proper.scalar_obj {kvs : Dict} (h : Proper (.obj kvs)) : scalar (.obj kvs) = none := by
  rw [scalar, h.not_option]
  rfl

/-! ### Reading a tree -/

/-- What `walk` does at a value. -/
def visit (v : Json) (path : String) : List (String × Current) :=
  match scalar v with
  | some leaf => [(path, leaf)]
  | none => walk v path

theorem mem_walkItems {kvs : Dict} {pre : String} {e : String × Current} :
    e ∈ walkItems kvs pre ↔ ∃ kv ∈ kvs, e ∈ visit kv.2 (joinPath pre kv.1) := by
  induction kvs with
  | nil => simp [walkItems]
  | cons kv kvs ih =>
    obtain ⟨k, v⟩ := kv
    rw [walkItems, List.mem_append, ih, List.exists_mem_cons_iff]
    rfl

theorem Proper.mem_visit {v : Json} (h : Proper v) {path : String} {e : String × Current} :
    e ∈ visit v path ↔
      ∃ p s, leafAt v p = some (.str s) ∧ e = (p.foldl joinPath path, .text s) := by
  induction h generalizing path with
  | text s =>
    constructor
    · intro he
      exact ⟨[], s, rfl, List.mem_singleton.mp he⟩
    · rintro ⟨p, s', hp, rfl⟩
      cases p with
      | nil =>
        obtain rfl := Json.str.inj (Option.some.inj hp)
        exact List.mem_singleton_self _
      | cons q p => cases hp
  | @container kvs hne hnodup hsegments hproper ih =>
    have hvisit : visit (.obj kvs) path = walkItems kvs path := by
      rw [visit, (Proper.container hne hnodup hsegments hproper).scalar_obj]
      rfl
    rw [hvisit, mem_walkItems]
    constructor
    · rintro ⟨kv, hkv, he⟩
      obtain ⟨p, s, hp, rfl⟩ := (ih kv hkv).mp he
      refine ⟨kv.1 :: p, s, ?_, rfl⟩
      rw [leafAt_obj_cons, Dict.get?_of_mem hnodup hkv, Option.bind_some, hp]
    · rintro ⟨p, s, hp, rfl⟩
      cases p with
      | nil => cases hp
      | cons k p =>
        rw [leafAt_obj_cons, Option.bind_eq_some_iff] at hp
        obtain ⟨v, hv, hp⟩ := hp
        exact ⟨(k, v), Dict.mem_of_get? hv, (ih _ (Dict.mem_of_get? hv)).mpr ⟨p, s, hp, rfl⟩⟩

theorem ProperDict.mem_walk {kvs : Dict} (h : ProperDict kvs) {e : String × Current} :
    e ∈ walk (.obj kvs) "" ↔
      ∃ p s, leafAt (.obj kvs) p = some (.str s) ∧ e = (p.foldl joinPath "", .text s) := by
  by_cases hne : kvs = []
  · subst hne
    constructor
    · intro he
      cases he
    · rintro ⟨p, s, hp, -⟩
      cases p <;> cases hp
  · have hproper := h.container hne
    have hwalk : walk (.obj kvs) "" = visit (.obj kvs) "" := by
      rw [visit, hproper.scalar_obj]
    rw [hwalk, hproper.mem_visit]

theorem toList_foldl_joinPath {parts : List String} (h : ∀ s ∈ parts, s ≠ "") {pre : String}
    (hpre : pre ≠ "") : (parts.foldl joinPath pre).toList =
      pre.toList ++ (parts.map fun s => '.' :: s.toList).flatten := by
  induction parts generalizing pre with
  | nil => simp
  | cons s parts ih =>
    have hjoin : joinPath pre s = pre ++ "." ++ s := if_neg hpre
    have hne : pre ++ "." ++ s ≠ "" := by
      intro heq
      have hlist := congrArg String.toList heq
      simp at hlist
    rw [List.foldl_cons, hjoin, ih (fun t ht => h t (List.mem_cons_of_mem _ ht)) hne]
    simp

theorem intercalate_dot (cs : List Char) (css : List (List Char)) :
    ['.'].intercalate (cs :: css) = cs ++ (css.map fun ds => '.' :: ds).flatten := by
  induction css generalizing cs with
  | nil => simp
  | cons ds css ih =>
    rw [List.intercalate_cons_cons, ih]
    simp

theorem foldl_joinPath {key : String} (h : ∀ s ∈ splitDots key, s ≠ "") :
    (splitDots key).foldl joinPath "" = key := by
  have hjoin : ['.'].intercalate ((splitDots key).map String.toList) = key.toList := by
    rw [splitDots, List.map_map]
    have hid : String.toList ∘ String.ofList = id := by
      funext cs
      exact String.toList_ofList
    rw [hid, List.map_id, List.intercalate_splitOn]
  apply String.toList_injective
  rw [← hjoin]
  cases hparts : splitDots key with
  | nil => rfl
  | cons s parts =>
    rw [hparts] at h
    have hfirst : joinPath "" s = s := if_pos rfl
    rw [List.foldl_cons, hfirst, List.map_cons, intercalate_dot,
      toList_foldl_joinPath (fun t ht => h t (List.mem_cons_of_mem _ ht)) (h s List.mem_cons_self),
      List.map_map]
    rfl

/-! ### Growing a tree -/

/-- An assignment whose path meets no leaf on its way and no container at its end adds its
leaf and keeps the others. -/
theorem unflattenInto_spec {parts : List String} {last : String} (s : String) {node : Dict}
    (hnode : ProperDict node) (hparts : ∀ t ∈ parts ++ [last], Segment t)
    (hapart : ∀ p t, leafAt (.obj node) p = some (.str t) →
      ¬ p <+: parts ++ [last] ∧ ¬ parts ++ [last] <+: p) :
    ∃ node', unflattenInto parts last (.str s) node = .ok node' ∧ ProperDict node' ∧
      node' ≠ [] ∧ ∀ p v, leafAt (.obj node') p = some v ↔
        (p = parts ++ [last] ∧ v = .str s) ∨ leafAt (.obj node) p = some v := by
  induction parts generalizing node with
  | nil =>
    have hnone : Dict.get? node last = none := by
      cases hv : Dict.get? node last with
      | none => rfl
      | some v =>
        obtain ⟨p, t, hp⟩ := (hnode.get hv).exists_leaf
        have hleaf : leafAt (.obj node) (last :: p) = some (.str t) := by
          rw [leafAt_obj_cons, hv, Option.bind_some, hp]
        exact absurd ((List.prefix_append [last] p)) (hapart _ t hleaf).2
    refine ⟨_, rfl, hnode.set (hparts last (by simp)) (.text s), Dict.set_ne_nil _ _ _, ?_⟩
    intro p v
    cases p with
    | nil => simp [leafAt]
    | cons q p =>
      rw [leafAt_obj_cons, leafAt_obj_cons, Dict.get?_set]
      by_cases hq : last = q
      · subst hq
        rw [if_pos rfl, hnone]
        cases p with
        | nil => simp [leafAt, eq_comm]
        | cons q p => simp [leafAt]
      · simp [hq, Ne.symm hq]
  | cons part parts ih =>
    -- `kvs` is what stands below `part`
    have hbelow : ∀ kvs : Dict, ProperDict kvs →
        (∀ p v, leafAt (.obj kvs) p = some v ↔ leafAt (.obj node) (part :: p) = some v) →
        ∃ child, unflattenInto parts last (.str s) kvs = .ok child ∧
          ProperDict (Dict.set node part (.obj child)) ∧
          ∀ p v, leafAt (.obj (Dict.set node part (.obj child))) p = some v ↔
            (p = part :: parts ++ [last] ∧ v = .str s) ∨ leafAt (.obj node) p = some v := by
      intro kvs hkvs hleaves
      obtain ⟨child, hchild, hproper, hne, hspec⟩ := ih hkvs
        (fun t ht => hparts t (List.mem_cons_of_mem _ ht)) fun p t hp => by
          obtain ⟨h₁, h₂⟩ := hapart _ t ((hleaves p _).mp hp)
          rw [List.cons_append, List.prefix_cons_inj] at h₁ h₂
          exact ⟨h₁, h₂⟩
      refine ⟨child, hchild, hnode.set (hparts part List.mem_cons_self) (hproper.container hne), ?_⟩
      intro p v
      cases p with
      | nil => simp [leafAt]
      | cons q p =>
        rw [leafAt_obj_cons, Dict.get?_set]
        by_cases hq : part = q
        · subst hq
          rw [if_pos rfl, Option.bind_some, hspec, hleaves]
          simp
        · rw [if_neg hq, ← leafAt_obj_cons]
          simp [Ne.symm hq]
    rw [unflattenInto]
    cases hv : Dict.get? node part with
    | none =>
      obtain ⟨child, hchild, hproper, hspec⟩ := hbelow [] properDict_nil fun p v => by
        rw [leafAt_obj_cons, hv]
        cases p <;> simp [leafAt]
      refine ⟨_, ?_, hproper, Dict.set_ne_nil _ _ _, hspec⟩
      simp only [hchild]
      rfl
    | some v =>
      have hget := hnode.get hv
      cases hget with
      | text t =>
        have hleaf : leafAt (.obj node) [part] = some (.str t) := by
          rw [leafAt_obj_cons, hv]
          rfl
        exact absurd (List.prefix_append [part] (parts ++ [last])) (hapart _ t hleaf).1
      | @container kvs hne hnodup hsegments hproper =>
        obtain ⟨child, hchild, hproper, hspec⟩ := hbelow kvs ⟨hnodup, hsegments, hproper⟩
          fun p v => by rw [leafAt_obj_cons, hv, Option.bind_some]
        refine ⟨_, ?_, hproper, Dict.set_ne_nil _ _ _, hspec⟩
        simp only [hchild]
        rfl

/-- A map from paths to texts such that no path is a prefix of another, and no part of one
is empty or named `selected`. -/
structure EditMap where
  entries : List (String × String)
  nodup : (entries.map (·.1)).Nodup
  segments : ∀ kv ∈ entries, ∀ s ∈ splitDots kv.1, Segment s
  prefixFree : ∀ kv ∈ entries, ∀ kv' ∈ entries,
    splitDots kv.1 <+: splitDots kv'.1 → kv.1 = kv'.1

/-- The leaves of a tree are the entries of a map. -/
def HasLeaves (d : Dict) (entries : List (String × String)) : Prop :=
  ProperDict d ∧ ∀ p v, leafAt (.obj d) p = some v ↔
    ∃ kv ∈ entries, p = splitDots kv.1 ∧ v = .str kv.2

theorem EditMap.unflatten_spec (e : EditMap) :
    ∃ d, unflatten (strDict e.entries) = .ok d ∧ HasLeaves d e.entries := by
  have hrun : ∀ done todo, e.entries = done ++ todo → ∀ d, HasLeaves d done →
      ∃ d', (strDict todo).foldlM (fun out kv =>
        unflattenInto (splitDots kv.1).dropLast ((splitDots kv.1).getLastD "") kv.2 out) d =
          .ok d' ∧ HasLeaves d' e.entries := by
    intro done todo
    induction todo generalizing done with
    | nil =>
      intro hentries d hd
      rw [List.append_nil] at hentries
      exact ⟨d, rfl, hentries ▸ hd⟩
    | cons kv todo ih =>
      intro hentries d hd
      have hkv : kv ∈ e.entries := by
        rw [hentries]
        exact List.mem_append_right _ List.mem_cons_self
      have hnew : ∀ kv' ∈ done, kv'.1 ≠ kv.1 := by
        have hnodup := e.nodup
        rw [hentries, List.map_append, List.map_cons, List.nodup_append] at hnodup
        intro kv' hkv'
        exact hnodup.2.2 _ (List.mem_map_of_mem hkv') _ List.mem_cons_self
      obtain ⟨d', hd', hproper, -, hspec⟩ := unflattenInto_spec kv.2 hd.1
        (splitDots_concat kv.1 ▸ e.segments kv hkv) fun p t hp => by
          obtain ⟨kv', hkv', rfl, -⟩ := (hd.2 p _).mp hp
          have hmem : kv' ∈ e.entries := by
            rw [hentries]
            exact List.mem_append_left _ hkv'
          rw [splitDots_concat]
          exact ⟨fun h => hnew kv' hkv' (e.prefixFree _ hmem _ hkv h),
            fun h => hnew kv' hkv' (e.prefixFree _ hkv _ hmem h).symm⟩
      rw [splitDots_concat] at hspec
      obtain ⟨d'', hd'', hleaves⟩ := ih (done ++ [kv]) (by rw [hentries]; simp) d' ⟨hproper, by
        intro p v
        rw [hspec, hd.2, or_comm]
        simp [or_and_right, exists_or]⟩
      refine ⟨d'', ?_, hleaves⟩
      rw [strDict, List.map_cons, List.foldlM_cons, hd']
      exact hd''
  refine hrun [] e.entries rfl [] ⟨properDict_nil, fun p v => ?_⟩
  cases p <;> simp [leafAt]

/-! ### Trees with the same leaves -/

theorem ProperDict.isSome_iff {kvs : Dict} (h : ProperDict kvs) (k : String) :
    (∃ v, Dict.get? kvs k = some v) ↔ ∃ p s, leafAt (.obj kvs) (k :: p) = some (.str s) := by
  constructor
  · rintro ⟨v, hv⟩
    obtain ⟨p, s, hp⟩ := (h.get hv).exists_leaf
    exact ⟨p, s, by rw [leafAt_obj_cons, hv, Option.bind_some, hp]⟩
  · rintro ⟨p, s, hp⟩
    rw [leafAt_obj_cons, Option.bind_eq_some_iff] at hp
    obtain ⟨v, hv, -⟩ := hp
    exact ⟨v, hv⟩

theorem pyEq_of_below {xs ys : Dict} (hxs : ProperDict xs) (hys : ProperDict ys)
    (h : ∀ p s, leafAt (.obj xs) p = some (.str s) ↔ leafAt (.obj ys) p = some (.str s))
    (hbelow : ∀ k x y, Dict.get? xs k = some x → Dict.get? ys k = some y →
      (∀ p s, leafAt x p = some (.str s) ↔ leafAt y p = some (.str s)) → x.pyEq y = true) :
    (Json.obj xs).pyEq (.obj ys) = true := by
  rw [Json.pyEq_obj_iff]
  intro k
  have hkeys : (∃ v, Dict.get? xs k = some v) ↔ ∃ v, Dict.get? ys k = some v := by
    rw [hxs.isSome_iff, hys.isSome_iff]
    exact exists_congr fun p => exists_congr fun s => h (k :: p) s
  cases hx : Dict.get? xs k with
  | none =>
    cases hy : Dict.get? ys k with
    | none => exact .none
    | some y =>
      obtain ⟨x, hx'⟩ := hkeys.mpr ⟨y, hy⟩
      cases hx.symm.trans hx'
  | some x =>
    obtain ⟨y, hy⟩ := hkeys.mp ⟨x, hx⟩
    rw [hy]
    refine .some (hbelow k x y hx hy fun p s => ?_)
    have hp := h (k :: p) s
    rw [leafAt_obj_cons, leafAt_obj_cons, hx, hy] at hp
    exact hp

theorem Proper.pyEq_of_leaves {a b : Json} (ha : Proper a) (hb : Proper b)
    (h : ∀ p s, leafAt a p = some (.str s) ↔ leafAt b p = some (.str s)) : a.pyEq b = true := by
  induction ha generalizing b with
  | text s =>
    have hs := (h [] s).mp rfl
    cases hb with
    | text t =>
      rw [Json.pyEq_str, decide_eq_true_iff]
      exact (Option.some.inj hs).symm
    | container _ _ _ _ => cases hs
  | @container xs hne hnodup hsegments hproper ih =>
    cases hb with
    | text t => cases (h [] t).mpr rfl
    | @container ys hne' hnodup' hsegments' hproper' =>
      refine pyEq_of_below ⟨hnodup, hsegments, hproper⟩ ⟨hnodup', hsegments', hproper'⟩ h ?_
      intro k x y hx hy hleaves
      exact ih (k, x) (Dict.mem_of_get? hx) (hproper' _ (Dict.mem_of_get? hy)) hleaves

theorem HasLeaves.pyEq {d d' : Dict} {entries : List (String × String)}
    (h : HasLeaves d entries) (h' : HasLeaves d' entries) :
    (Json.obj d).pyEq (.obj d') = true :=
  pyEq_of_below h.1 h'.1 (fun p _ => (h.2 p _).trans (h'.2 p _).symm)
    fun _ _ _ hx hy hleaves => (h.1.get hx).pyEq_of_leaves (h'.1.get hy) hleaves

theorem HasLeaves.perm {d : Dict} {entries entries' : List (String × String)}
    (h : HasLeaves d entries) (hperm : entries.Perm entries') : HasLeaves d entries' := by
  refine ⟨h.1, fun p v => (h.2 p v).trans ?_⟩
  simp only [hperm.mem_iff]

/-- A map with its entries in another order. -/
def EditMap.reorder (e : EditMap) {entries : List (String × String)}
    (h : e.entries.Perm entries) : EditMap where
  entries := entries
  nodup := (h.map _).nodup_iff.mp e.nodup
  segments kv hkv := e.segments kv (h.mem_iff.mpr hkv)
  prefixFree kv hkv kv' hkv' := e.prefixFree kv (h.mem_iff.mpr hkv) kv' (h.mem_iff.mpr hkv')

/-! ### The round trip -/

theorem assigned_eq (as : List (String × Current)) :
    assigned as = entriesOf (·.1) (·.2) as := rfl

theorem mem_assigned {as : List (String × Current)}
    (h : ∀ a ∈ as, ∀ b ∈ as, a.1 = b.1 → a = b) {a : String × Current} :
    a ∈ assigned as ↔ a ∈ as := by
  rw [assigned_eq, ← Prod.mk.eta (p := a), mem_iff_lookup (entriesOf_nodup _ _ as),
    lookup_entriesOf, Option.map_eq_some_iff]
  constructor
  · rintro ⟨b, hb, hval⟩
    have hkey : b.1 = a.1 := by simpa using List.find?_some hb
    rw [← hkey, ← hval]
    exact List.mem_reverse.mp (List.mem_of_find?_eq_some hb)
  · intro ha
    have hsome : (as.reverse.find? fun b => decide (b.1 = a.1)).isSome = true := by
      rw [List.find?_isSome]
      exact ⟨a, List.mem_reverse.mpr ha, by simp⟩
    obtain ⟨b, hb⟩ := Option.isSome_iff_exists.mp hsome
    have hkey : b.1 = a.1 := by simpa using List.find?_some hb
    have hmem := List.mem_reverse.mp (List.mem_of_find?_eq_some hb)
    exact ⟨b, hb, congrArg Prod.snd (h b hmem a ha hkey)⟩

theorem EditMap.mem_walk (e : EditMap) {d : Dict} (hd : HasLeaves d e.entries)
    {a : String × Current} :
    a ∈ walk (.obj d) "" ↔ ∃ kv ∈ e.entries, a = (kv.1, .text kv.2) := by
  have hjoin : ∀ kv ∈ e.entries, (splitDots kv.1).foldl joinPath "" = kv.1 :=
    fun kv hkv => foldl_joinPath fun s hs => (e.segments kv hkv s hs).1
  rw [hd.1.mem_walk]
  constructor
  · rintro ⟨p, s, hp, rfl⟩
    obtain ⟨kv, hkv, rfl, hs⟩ := (hd.2 p _).mp hp
    rw [hjoin kv hkv, Json.str.inj hs]
    exact ⟨kv, hkv, rfl⟩
  · rintro ⟨kv, hkv, rfl⟩
    exact ⟨splitDots kv.1, kv.2, (hd.2 _ _).mpr ⟨kv, hkv, rfl, rfl⟩, by rw [hjoin kv hkv]⟩

/-- A model that declares exactly the paths of a map. -/
def Declares (model : Model) (e : EditMap) : Prop :=
  ∀ p, (∃ f ∈ model.fields, f.path = p) ↔ p ∈ e.entries.map (·.1)

/-- **What is read back is what was sent.**  `_unflatten` returns an object; where a device
answers with it below the root of a model that declares the paths, `flatten_values` gives the
map again; and the entries in another order give an object that is equal up to the order of
its keys. -/
theorem edit_round_trip (e : EditMap) :
    ∃ d, unflatten (strDict e.entries) = .ok d ∧
      (∀ (model : Model) (response : Dict), Declares model e →
        Dict.get? response model.modelRoot = some (.obj d) →
        ∃ out, flattenValues (.obj response) model = .ok out ∧
          out.Perm (e.entries.map fun kv => (kv.1, .text kv.2))) ∧
      ∀ entries, e.entries.Perm entries → ∃ d', unflatten (strDict entries) = .ok d' ∧
        (Json.obj d).pyEq (.obj d') = true := by
  obtain ⟨d, hd, hleaves⟩ := e.unflatten_spec
  refine ⟨d, hd, fun model response hmodel hroot => ?_, fun entries hperm => ?_⟩
  · have hrootOf : rootOf (.obj response) model = .ok (.obj d) := by
      rw [rootOf, Json.orElse_obj, Json.attrGet, Dict.getD, hroot, Option.getD_some]
    have hagree : ∀ a ∈ walk (.obj d) "", ∀ b ∈ walk (.obj d) "", a.1 = b.1 → a = b := by
      intro a ha b hb hab
      obtain ⟨kv, hkv, rfl⟩ := (e.mem_walk hleaves).mp ha
      obtain ⟨kv', hkv', rfl⟩ := (e.mem_walk hleaves).mp hb
      have heq : kv = kv' := List.inj_on_of_nodup_map e.nodup hkv hkv' hab
      rw [heq]
    refine ⟨_, by rw [flattenValues, hrootOf]; rfl, ?_⟩
    rw [List.perm_ext_iff_of_nodup]
    · intro a
      rw [List.mem_filter, mem_assigned hagree, e.mem_walk hleaves, List.mem_map]
      constructor
      · rintro ⟨⟨kv, hkv, rfl⟩, -⟩
        exact ⟨kv, hkv, rfl⟩
      · rintro ⟨kv, hkv, rfl⟩
        refine ⟨⟨kv, hkv, rfl⟩, ?_⟩
        obtain ⟨f, hf, hpath⟩ := (hmodel kv.1).mpr (List.mem_map_of_mem hkv)
        exact List.any_eq_true.mpr ⟨f, hf, beq_iff_eq.mpr hpath⟩
    · exact (List.Nodup.of_map _ (entriesOf_nodup _ _ _)).filter _
    · refine List.Nodup.of_map Prod.fst ?_
      rw [List.map_map]
      exact e.nodup
  · obtain ⟨d', hd', hleaves'⟩ := (e.reorder hperm).unflatten_spec
    exact ⟨d', hd', (hleaves.perm hperm).pyEq hleaves'⟩

end LiveValues

end Opngms
