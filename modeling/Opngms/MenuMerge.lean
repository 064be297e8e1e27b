/-
Opngms/MenuMerge.lean

The menu of the catalog, merged from the fragments of the modules
(`tools/opnsense_catalog/menu.py`).

A node of a forest stands at an id path: the ids of the nodes above it, and its own.
`levelAt` are the lists of siblings below a path, `nodesAt` the nodes that stand at one,
in the order in which the merge meets them.  Merging commutes with going down a path
(`levelAt_mergeLists`), so what the merged tree has at a path is what one level of the
merge makes of the nodes that stand there (`mem_mergeLists`).

Main result: **`mergeMenus_spec`**.
-/
import Mathlib.Data.List.Induction
import Mathlib.Data.Prod.Lex
import Mathlib.Data.String.Basic
import Opngms.Catalog
import Opngms.StableSort

namespace Opngms

namespace MenuMerge

/-- `_ORDER_LAST`. -/
def orderLast : Nat := 10000

/-- A node of a menu; a node without children has an empty list. -/
inductive Node where
  | mk (id label : String) (order : Nat) (icon url : Option String) (children : List Node)

namespace Node

def id : Node → String
  | mk id _ _ _ _ _ => id

def label : Node → String
  | mk _ label _ _ _ _ => label

def order : Node → Nat
  | mk _ _ order _ _ _ => order

def icon : Node → Option String
  | mk _ _ _ icon _ _ => icon

def url : Node → Option String
  | mk _ _ _ _ url _ => url

def children : Node → List Node
  | mk _ _ _ _ _ children => children

/-- The key of the sort: `(n["order"], n["label"])`. -/
def sortKey (n : Node) : Nat ×ₗ String := toLex (n.order, n.label)

end Node

/-! ### One level -/

/-- The record of an id while a level is merged. -/
structure Entry where
  label : String
  order : Nat
  icon : Option String
  url : Option String
  /-- `_kids`: the children of every node that was met. -/
  kids : List (List Node)

def Entry.fresh (id : String) : Entry := ⟨id, orderLast, none, none, []⟩

/-- What a node adds to the record of its id. -/
def Entry.add (id : String) (cur : Entry) (n : Node) : Entry where
  -- a label other than the tag is real, and the first real one stays
  label := if cur.label = id ∧ n.label ≠ n.id then n.label else cur.label
  icon := cur.icon.or n.icon
  url := cur.url.or n.url
  order := if n.order < cur.order then n.order else cur.order
  kids := cur.kids ++ [n.children]

def addNode (byId : List (String × Entry)) (n : Node) : List (String × Entry) :=
  putEntry byId n.id (((byId.lookup n.id).getD (.fresh n.id)).add n.id n)

/-- `by_id` after the loop, in the order in which the ids were met. -/
def collect (nodes : List Node) : List (String × Entry) := nodes.foldl addNode []

def withId (k : String) (lists : List (List Node)) : List Node :=
  lists.flatten.filter fun n => n.id = k

def summary (k : String) (nodes : List Node) : Entry := nodes.foldl (Entry.add k) (.fresh k)

theorem summary_concat (k : String) (nodes : List Node) (n : Node) :
    summary k (nodes ++ [n]) = (summary k nodes).add k n :=
  List.foldl_concat ..

theorem lookup_collect (nodes : List Node) (k : String) :
    (collect nodes).lookup k = if nodes.filter (fun n => n.id = k) = [] then none
      else some (summary k (nodes.filter fun n => n.id = k)) := by
  induction nodes using List.reverseRecOn with
  | nil => rfl
  | append_singleton nodes n ih =>
    rw [collect, List.foldl_concat, ← collect, addNode, lookup_putEntry, List.filter_append]
    by_cases hk : k = n.id
    · subst hk
      have hlast : [n].filter (fun m => m.id = n.id) = [n] := by simp
      rw [if_pos rfl, hlast, if_neg (by simp), ih, summary_concat]
      split
      · rename_i hnone
        rw [hnone]
        rfl
      · rfl
    · have hlast : [n].filter (fun m => m.id = k) = [] := by simpa using Ne.symm hk
      rw [if_neg hk, hlast, List.append_nil, ih]

theorem collect_nodup (nodes : List Node) : ((collect nodes).map (·.1)).Nodup := by
  induction nodes using List.reverseRecOn with
  | nil => exact List.nodup_nil
  | append_singleton nodes n ih =>
    rw [collect, List.foldl_concat, ← collect]
    exact putEntry_nodup ih _ _

theorem mem_collect {nodes : List Node} {k : String} {e : Entry} :
    (k, e) ∈ collect nodes ↔ nodes.filter (fun n => n.id = k) ≠ [] ∧
      e = summary k (nodes.filter fun n => n.id = k) := by
  rw [mem_iff_lookup (collect_nodup nodes), lookup_collect]
  split
  · rename_i hnil
    exact ⟨nofun, fun h => absurd hnil h.1⟩
  · rename_i hne
    rw [Option.some.injEq]
    exact ⟨fun h => ⟨hne, h.symm⟩, fun h => h.2.symm⟩

/-! What the loop leaves in a record. -/

section Summary

variable (k : String) (nodes : List Node)

theorem summary_kids : (summary k nodes).kids = nodes.map Node.children := by
  have hfold (cur : Entry) : (nodes.foldl (Entry.add k) cur).kids =
      cur.kids ++ nodes.map Node.children := by
    induction nodes generalizing cur with
    | nil => simp
    | cons n nodes ih =>
      rw [List.foldl_cons, ih]
      simp [Entry.add]
  exact hfold (.fresh k)

theorem summary_first {field : Entry → Option String} {attr : Node → Option String}
    (hfresh : field (.fresh k) = none)
    (hadd : ∀ cur n, field (Entry.add k cur n) = (field cur).or (attr n)) :
    field (summary k nodes) = nodes.findSome? attr := by
  have hfold (cur : Entry) : field (nodes.foldl (Entry.add k) cur) =
      (field cur).or (nodes.findSome? attr) := by
    induction nodes generalizing cur with
    | nil => simp
    | cons n nodes ih =>
      rw [List.foldl_cons, ih, List.findSome?_cons, hadd, Option.or_assoc]
      cases attr n <;> rfl
  rw [summary, hfold, hfresh, Option.none_or]

theorem summary_icon : (summary k nodes).icon = nodes.findSome? Node.icon :=
  summary_first k nodes rfl fun _ _ => rfl

theorem summary_url : (summary k nodes).url = nodes.findSome? Node.url :=
  summary_first k nodes rfl fun _ _ => rfl

theorem summary_order : (summary k nodes).order = (nodes.map Node.order).foldr min orderLast := by
  have hfold (cur : Entry) : (nodes.foldl (Entry.add k) cur).order =
      (nodes.map Node.order).foldr min cur.order := by
    induction nodes generalizing cur with
    | nil => rfl
    | cons n nodes ih =>
      rw [List.foldl_cons, ih, List.map_cons, List.foldr_cons]
      have hmin : (cur.add k n).order = min n.order cur.order := by
        rw [Nat.min_def]
        show (if n.order < cur.order then n.order else cur.order) = _
        split_ifs <;> omega
      rw [hmin]
      generalize nodes.map Node.order = orders
      induction orders with
      | nil => rfl
      | cons o orders ih => rw [List.foldr_cons, List.foldr_cons, ih, min_left_comm]
  exact hfold (.fresh k)

theorem summary_label (h : ∀ n ∈ nodes, n.id = k) : (summary k nodes).label =
    ((nodes.find? fun n => n.label ≠ n.id).map Node.label).getD k := by
  have hfold (cur : Entry) : (nodes.foldl (Entry.add k) cur).label =
      if cur.label = k then ((nodes.find? fun n => n.label ≠ n.id).map Node.label).getD k
      else cur.label := by
    induction nodes generalizing cur with
    | nil =>
      rw [List.foldl_nil]
      split <;> simp_all
    | cons n nodes ih =>
      have hn : n.id = k := h n List.mem_cons_self
      rw [List.foldl_cons, ih fun m hm => h m (List.mem_cons_of_mem _ hm)]
      have hadd : (cur.add k n).label =
          if cur.label = k ∧ n.label ≠ n.id then n.label else cur.label := rfl
      by_cases hcur : cur.label = k
      · by_cases hreal : n.label = n.id
        · simp [hadd, hcur, hreal]
        · have hne : n.label ≠ k := hn ▸ hreal
          simp [hadd, hcur, hreal, hne]
      · simp [hadd, hcur]
  exact (hfold (.fresh k)).trans (if_pos rfl)

end Summary

/-! ### The merge -/

mutual

def Node.weight : Node → Nat
  | .mk _ _ _ _ _ children => weightAll children + 1

def weightAll : List Node → Nat
  | [] => 0
  | n :: nodes => n.weight + weightAll nodes

end

theorem weightAll_append (ms ns : List Node) : weightAll (ms ++ ns) = weightAll ms + weightAll ns := by
  induction ms with
  | nil => simp [weightAll]
  | cons m ms ih => rw [List.cons_append, weightAll, weightAll, ih, Nat.add_assoc]

theorem weightAll_filter_le (p : Node → Bool) (nodes : List Node) :
    weightAll (nodes.filter p) ≤ weightAll nodes := by
  induction nodes with
  | nil => exact Nat.le_refl _
  | cons n nodes ih =>
    rw [List.filter_cons, weightAll]
    split
    · rw [weightAll]
      exact Nat.add_le_add_left ih _
    · exact Nat.le_trans ih (Nat.le_add_left _ _)

theorem weightAll_children (nodes : List Node) :
    weightAll (nodes.map Node.children).flatten + nodes.length = weightAll nodes := by
  induction nodes with
  | nil => rfl
  | cons n nodes ih =>
    obtain ⟨id, label, order, icon, url, children⟩ := n
    rw [List.map_cons, List.flatten_cons, weightAll_append, weightAll, Node.weight, ← ih,
      List.length_cons]
    show weightAll children + _ + _ = _
    omega

theorem weightAll_kids {lists : List (List Node)} {k : String} {e : Entry}
    (h : (k, e) ∈ collect lists.flatten) :
    weightAll e.kids.flatten < weightAll lists.flatten := by
  obtain ⟨hne, rfl⟩ := mem_collect.1 h
  rw [summary_kids]
  have hlength := List.length_pos_iff.mpr hne
  have hfilter := weightAll_filter_le (fun n => n.id = k) lists.flatten
  rw [← weightAll_children] at hfilter
  omega

/-- `_merge_lists`. -/
def mergeLists (lists : List (List Node)) : List Node :=
  sortBy Node.sortKey <| (collect lists.flatten).attach.map fun ke =>
    .mk ke.1.1 ke.1.2.label ke.1.2.order ke.1.2.icon ke.1.2.url (mergeLists ke.1.2.kids)
termination_by weightAll lists.flatten
decreasing_by exact weightAll_kids ke.2

/-- `merge_menus`. -/
def mergeMenus (fragments : List (List Node)) : List Node := mergeLists fragments

def Entry.node (k : String) (e : Entry) : Node :=
  .mk k e.label e.order e.icon e.url (mergeLists e.kids)

theorem mergeLists_eq (lists : List (List Node)) : mergeLists lists =
    sortBy Node.sortKey ((collect lists.flatten).map fun ke => ke.2.node ke.1) := by
  rw [mergeLists]
  congr 1
  exact List.attach_map_val (f := fun ke : String × Entry => ke.2.node ke.1)

theorem mem_mergeLists {lists : List (List Node)} {n : Node} : n ∈ mergeLists lists ↔
    withId n.id lists ≠ [] ∧ n = (summary n.id (withId n.id lists)).node n.id := by
  rw [mergeLists_eq, (sortBy_perm _).mem_iff, List.mem_map]
  constructor
  · rintro ⟨⟨k, e⟩, hmem, rfl⟩
    obtain ⟨hne, rfl⟩ := mem_collect.1 hmem
    exact ⟨hne, rfl⟩
  · rintro ⟨hne, hn⟩
    exact ⟨(n.id, _), mem_collect.2 ⟨hne, rfl⟩, hn.symm⟩

theorem mergeLists_nodup (lists : List (List Node)) : ((mergeLists lists).map Node.id).Nodup := by
  have hperm : ((mergeLists lists).map Node.id).Perm ((collect lists.flatten).map (·.1)) := by
    rw [mergeLists_eq]
    refine ((sortBy_perm _).map Node.id).trans (List.Perm.of_eq ?_)
    rw [List.map_map]
    rfl
  exact hperm.nodup_iff.mpr (collect_nodup _)

theorem mergeLists_sorted (lists : List (List Node)) :
    (mergeLists lists).Pairwise fun m n => m.sortKey ≤ n.sortKey := by
  rw [mergeLists_eq]
  exact sortBy_pairwise _

@[simp] theorem mergeLists_nil : mergeLists [] = [] := by
  rw [mergeLists_eq]
  rfl

theorem filter_id_of_mem {nodes : List Node} (hnodup : (nodes.map Node.id).Nodup) {n : Node}
    (hn : n ∈ nodes) : nodes.filter (fun m => m.id = n.id) = [n] := by
  induction nodes with
  | nil => cases hn
  | cons m nodes ih =>
    obtain ⟨hm, hnodup⟩ := List.nodup_cons.mp hnodup
    rcases List.mem_cons.mp hn with rfl | hn
    · rw [List.filter_cons_of_pos (by simp), List.filter_eq_nil_iff.mpr]
      intro m' hm' heq
      exact hm (of_decide_eq_true heq ▸ List.mem_map_of_mem hm')
    · rw [List.filter_cons_of_neg, ih hnodup hn]
      intro heq
      exact hm (of_decide_eq_true heq ▸ List.mem_map_of_mem hn)

theorem withId_mergeLists (k : String) (lists : List (List Node)) :
    withId k [mergeLists lists] = if withId k lists = [] then []
      else [(summary k (withId k lists)).node k] := by
  rw [withId, List.flatten_singleton]
  split
  · rename_i hnil
    refine List.filter_eq_nil_iff.mpr fun n hn heq => ?_
    obtain rfl := of_decide_eq_true heq
    exact (mem_mergeLists.1 hn).1 hnil
  · rename_i hne
    have hmem : (summary k (withId k lists)).node k ∈ mergeLists lists :=
      mem_mergeLists.2 ⟨hne, rfl⟩
    exact filter_id_of_mem (mergeLists_nodup lists) hmem

/-! ### Paths -/

/-- The lists of siblings below an id path. -/
def levelAt : List (List Node) → List String → List (List Node)
  | lists, [] => lists
  | lists, k :: p => levelAt ((withId k lists).map Node.children) p

/-- The nodes at the id path `p`, `k`. -/
def nodesAt (lists : List (List Node)) (p : List String) (k : String) : List Node :=
  withId k (levelAt lists p)

@[simp] theorem levelAt_nil (p : List String) : levelAt [] p = [] := by
  cases p with
  | nil => rfl
  | cons k p => exact levelAt_nil p

theorem levelAt_append (as bs : List (List Node)) (p : List String) :
    levelAt (as ++ bs) p = levelAt as p ++ levelAt bs p := by
  induction p generalizing as bs with
  | nil => rfl
  | cons k p ih =>
    rw [levelAt, levelAt, levelAt, ← ih, ← List.map_append, withId, List.flatten_append,
      List.filter_append]
    rfl

theorem nodesAt_eq_flatMap (lists : List (List Node)) (p : List String) (k : String) :
    nodesAt lists p k = lists.flatMap fun f => nodesAt [f] p k := by
  induction lists with
  | nil => simp [nodesAt, withId]
  | cons f lists ih =>
    rw [List.flatMap_cons, ← ih, nodesAt, ← List.singleton_append, levelAt_append, withId,
      List.flatten_append, List.filter_append]
    rfl

/-- **Merging commutes with going down.** -/
theorem levelAt_mergeLists (lists : List (List Node)) (p : List String) :
    (levelAt [mergeLists lists] p).flatten = mergeLists (levelAt lists p) := by
  induction p generalizing lists with
  | nil => exact List.flatten_singleton
  | cons k p ih =>
    rw [levelAt, levelAt, withId_mergeLists]
    split
    · rename_i hnil
      simp [hnil]
    · rw [← ih, ← summary_kids k (withId k lists)]
      rfl

theorem nodesAt_mergeLists (lists : List (List Node)) (p : List String) (k : String) :
    nodesAt [mergeLists lists] p k = if nodesAt lists p k = [] then []
      else [(summary k (nodesAt lists p k)).node k] := by
  have hlevel : nodesAt [mergeLists lists] p k = withId k [mergeLists (levelAt lists p)] := by
    rw [nodesAt, withId, withId, levelAt_mergeLists, List.flatten_singleton]
  rw [hlevel, withId_mergeLists]
  rfl

/-! ### Merging again -/

theorem collect_of_nodup {nodes : List Node} (h : (nodes.map Node.id).Nodup) :
    collect nodes = nodes.map fun n => (n.id, summary n.id [n]) := by
  induction nodes using List.reverseRecOn with
  | nil => rfl
  | append_singleton nodes n ih =>
    rw [List.map_append, List.nodup_append] at h
    obtain ⟨hnodes, -, hnew⟩ := h
    have hfresh : n.id ∉ (collect nodes).map (·.1) := by
      rw [ih hnodes, List.map_map]
      intro hmem
      exact hnew _ hmem _ (by simp) rfl
    have hlookup : (collect nodes).lookup n.id = none := by
      rw [List.lookup_eq_none_iff]
      intro ke hke
      simpa using fun heq : n.id = ke.1 => hfresh (heq ▸ List.mem_map_of_mem hke)
    rw [collect, List.foldl_concat, ← collect, addNode, hlookup, putEntry_of_not_mem _ hfresh,
      ih hnodes, List.map_append]
    rfl

theorem foldr_min_le (orders : List Nat) (last : Nat) : orders.foldr min last ≤ last := by
  induction orders with
  | nil => exact Nat.le_refl _
  | cons o orders ih => exact Nat.le_trans (Nat.min_le_right _ _) ih

theorem node_summary_singleton {n : Node} (horder : n.order ≤ orderLast)
    (hchildren : mergeLists [n.children] = n.children) : (summary n.id [n]).node n.id = n := by
  have hlabel : (summary n.id [n]).label = n.label := by
    rw [summary_label n.id [n] fun m hm => by rw [List.mem_singleton.mp hm]]
    by_cases hreal : n.label = n.id
    · simp [hreal]
    · simp [hreal]
  have horder' : (summary n.id [n]).order = n.order := by
    rw [summary_order]
    exact min_eq_left horder
  rw [Entry.node, hlabel, horder', summary_icon, summary_url, summary_kids, List.map_singleton,
    hchildren, List.findSome?_singleton, List.findSome?_singleton]
  cases n
  rfl

theorem mergeLists_mergeLists (lists : List (List Node)) :
    mergeLists [mergeLists lists] = mergeLists lists := by
  induction lists using mergeLists.induct with
  | case1 lists ih =>
    rw [mergeLists_eq [mergeLists lists], List.flatten_singleton,
      collect_of_nodup (mergeLists_nodup lists), List.map_map]
    have hsame : (mergeLists lists).map ((fun ke => ke.2.node ke.1) ∘
        fun n => (n.id, summary n.id [n])) = mergeLists lists := by
      conv_rhs => rw [← List.map_id (mergeLists lists)]
      refine List.map_congr_left fun n hn => ?_
      obtain ⟨hne, heq⟩ := mem_mergeLists.1 hn
      refine node_summary_singleton ?_ ?_
      · rw [heq]
        show (summary n.id _).order ≤ orderLast
        rw [summary_order]
        exact foldr_min_le _ _
      · rw [heq]
        exact ih ⟨(n.id, _), mem_collect.2 ⟨hne, rfl⟩⟩
    rw [hsame]
    exact sortBy_of_pairwise (mergeLists_sorted lists)

/-! ### The main result -/

/-- **The merged menu**: its id paths are those of the fragments; at every level the ids are
distinct and the nodes sorted by order and label; a node has the least order that a fragment
gives it, and the first real label, icon and url; and merging it again changes nothing. -/
theorem mergeMenus_spec (fragments : List (List Node)) :
    (∀ p k, nodesAt [mergeMenus fragments] p k ≠ [] ↔ ∃ f ∈ fragments, nodesAt [f] p k ≠ []) ∧
    (∀ p, (((levelAt [mergeMenus fragments] p).flatten).map Node.id).Nodup ∧
      (levelAt [mergeMenus fragments] p).flatten.Pairwise fun m n =>
        m.order < n.order ∨ m.order = n.order ∧ m.label ≤ n.label) ∧
    (∀ p k, ∀ n ∈ nodesAt [mergeMenus fragments] p k,
      let given := fragments.flatMap fun f => nodesAt [f] p k
      n.order = (given.map Node.order).foldr min orderLast ∧
      n.label = ((given.find? fun m => m.label ≠ m.id).map Node.label).getD k ∧
      n.icon = given.findSome? Node.icon ∧ n.url = given.findSome? Node.url) ∧
    mergeMenus [mergeMenus fragments] = mergeMenus fragments := by
  refine ⟨fun p k => ?_, fun p => ?_, fun p k n hn => ?_, mergeLists_mergeLists fragments⟩
  · have hnodes : nodesAt [mergeMenus fragments] p k ≠ [] ↔ nodesAt fragments p k ≠ [] := by
      rw [mergeMenus, nodesAt_mergeLists]
      split <;> simp_all
    rw [hnodes, nodesAt_eq_flatMap, Ne, List.flatMap_eq_nil_iff]
    push Not
    rfl
  · rw [mergeMenus, levelAt_mergeLists]
    refine ⟨mergeLists_nodup _, (mergeLists_sorted _).imp fun {m n} hle => ?_⟩
    exact (Prod.Lex.toLex_le_toLex).mp hle
  · intro given
    have hgiven : given = nodesAt fragments p k := (nodesAt_eq_flatMap fragments p k).symm
    rw [mergeMenus, nodesAt_mergeLists, ← hgiven] at hn
    split at hn
    · cases hn
    · obtain rfl := List.mem_singleton.mp hn
      have hids : ∀ m ∈ given, m.id = k := by
        intro m hm
        rw [hgiven] at hm
        exact of_decide_eq_true (List.mem_filter.mp hm).2
      exact ⟨summary_order k given, summary_label k given hids, summary_icon k given,
        summary_url k given⟩

end MenuMerge

end Opngms
