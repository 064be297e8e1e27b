/-
Opngms/MapReader.lean

The configuration map against the reader of the revert.

`annotate_with_catalog` compares the path of a node, which begins with the tag
of the document root, with the mount of a model; `root.find(xml_path)` follows
the mount from the root downwards.  The element that `find` gives lies one level
deeper than the node the map takes for it, so the two agree only where there is
nothing to disagree about (**`map_agrees_iff`**): no mount leads to an element
for either of them.

Take the model that is found with the fewest segments.  Its element is marked
by a model that is found no deeper; the first node above that this model marks
lies one level higher still, in the subtree of a model with fewer segments.

An element is told from its equals by its address, the list of positions to
take from the root.
-/
import Mathlib.Data.List.Induction
import Opngms.ConfigPaths

namespace Opngms

open ConfigDiff ConfigModel ConfigMap

/-! ### Addresses -/

def Elem.at? : Elem → List Nat → Option Elem
  | el, [] => some el
  | el, i :: p => el.children[i]?.bind fun c => Elem.at? c p

namespace ConfigModel

def Node.path : Node → String
  | .mk _ path _ _ _ _ => path

def Node.children : Node → List Node
  | .mk _ _ _ children _ _ => children

def Node.at? : Node → List Nat → Option Node
  | n, [] => some n
  | n, i :: p => n.children[i]?.bind fun c => c.at? p

end ConfigModel

namespace ConfigMap

def Annotated.children : Annotated → List Annotated
  | .mk _ _ _ children _ _ _ _ => children

def Annotated.editable : Annotated → Bool
  | .mk _ _ _ _ _ _ editable _ => editable

def Annotated.catalogModelId : Annotated → Option String
  | .mk _ _ _ _ _ _ _ catalogModelId => catalogModelId

def Annotated.at? : Annotated → List Nat → Option Annotated
  | n, [] => some n
  | n, i :: p => n.children[i]?.bind fun c => c.at? p

end ConfigMap

/-- The addresses of what `findall` gives. -/
def Elem.locateAll : Elem → List String → List (List Nat)
  | _, [] => [[]]
  | el, t :: path =>
    el.children.zipIdx.flatMap fun ci =>
      if ci.1.tag == t then (Elem.locateAll ci.1 path).map (ci.2 :: ·) else []

theorem flatMap_filter {α β : Type*} (f : α → Bool) (g : α → List β) (l : List α) :
    (l.filter f).flatMap g = l.flatMap fun c => if f c then g c else [] := by
  induction l with
  | nil => rfl
  | cons c l ih =>
    rw [List.filter_cons, List.flatMap_cons, ← ih]
    split
    · rw [List.flatMap_cons]
    · rw [List.nil_append]

theorem locateAll_findall (el : Elem) (path : List String) :
    (Elem.locateAll el path).map (Elem.at? el) = (el.findall path).map some := by
  induction path generalizing el with
  | nil => rfl
  | cons t path ih =>
    have hone : ∀ ci ∈ el.children.zipIdx,
        (if ci.1.tag == t then (Elem.locateAll ci.1 path).map (ci.2 :: ·) else []).map
          (Elem.at? el) = if ci.1.tag == t then (ci.1.findall path).map some else [] := by
      rintro ⟨c, i⟩ hci
      have hget : el.children[i]? = some c := by
        simpa using List.mem_zipIdx_iff_getElem?.mp hci
      by_cases ht : (c.tag == t) = true
      · rw [if_pos ht, if_pos ht, ← ih, List.map_map]
        apply List.map_congr_left
        intro p _
        show el.children[i]?.bind _ = _
        rw [hget, Option.bind_some]
      · rw [if_neg ht, if_neg ht, List.map_nil]
    rw [Elem.locateAll, List.map_flatMap, List.flatMap_congr hone, Elem.findall, Elem.childrenTagged]
    rw [List.map_flatMap, flatMap_filter]
    conv_rhs => rw [← List.zipIdx_map_fst 0 el.children, List.flatMap_map]

theorem length_of_locate {el : Elem} {path : List String} {p : List Nat}
    (h : p ∈ Elem.locateAll el path) : p.length = path.length := by
  induction path generalizing el p with
  | nil =>
    rw [Elem.locateAll, List.mem_singleton] at h
    rw [h]
    rfl
  | cons t path ih =>
    obtain ⟨ci, -, hp⟩ := List.mem_flatMap.mp h
    split at hp
    · obtain ⟨q, hq, rfl⟩ := List.mem_map.mp hp
      rw [List.length_cons, List.length_cons, ih hq]
    · cases hp

theorem at?_of_locate {el : Elem} {path : List String} {p : List Nat}
    (h : p ∈ Elem.locateAll el path) : (Elem.at? el p).isSome := by
  have hmem : Elem.at? el p ∈ (el.findall path).map some := by
    rw [← locateAll_findall]
    exact List.mem_map_of_mem h
  obtain ⟨e, -, he⟩ := List.mem_map.mp hmem
  rw [← he]
  rfl

/-! ### The tree and its addresses -/

theorem node_getElem (L : Lowercase) (t x : String) (a : List (String × String)) (cs : List Elem)
    (path : String) (redacted : Bool) (i : Nat) :
    (node L (.mk t a x cs) path redacted).children[i]? =
      (siblings cs cs [])[i]?.map fun sc =>
        node L sc.2 (path ++ "/" ++ sc.1) (redacted || isSensitive L t) := by
  rw [node, Node.children, node_children, List.getElem?_map]

theorem node_path (L : Lowercase) (el : Elem) (path : String) (redacted : Bool) :
    (node L el path redacted).path = path := by
  obtain ⟨t, a, x, cs⟩ := el
  rw [node, Node.path]

theorem node_at? (L : Lowercase) {el : Elem} {p : List Nat} (path : String) (redacted : Bool)
    (h : (Elem.at? el p).isSome) : ((node L el path redacted).at? p).isSome := by
  induction p generalizing el path redacted with
  | nil => rfl
  | cons i p ih =>
    obtain ⟨t, a, x, cs⟩ := el
    have hchild : cs[i]? = ((siblings cs cs [])[i]?).map (·.2) := by
      rw [← List.getElem?_map, siblings_snd]
    rw [Elem.at?, show (Elem.mk t a x cs).children = cs from rfl, hchild] at h
    rw [Node.at?, node_getElem]
    cases hsc : (siblings cs cs [])[i]? with
    | none => rw [hsc] at h; cases h
    | some sc =>
      rw [hsc, Option.map_some, Option.bind_some] at h
      exact ih _ _ h

theorem path_of_child (L : Lowercase) {el : Elem} {p : List Nat} {i : Nat} {path : String}
    {redacted : Bool} {n : Node} (h : (node L el path redacted).at? (p ++ [i]) = some n) :
    ∃ m seg, (node L el path redacted).at? p = some m ∧ n.path = m.path ++ "/" ++ seg := by
  obtain ⟨t, a, x, cs⟩ := el
  induction p generalizing t a x cs path redacted with
  | nil =>
    rw [List.nil_append, Node.at?, node_getElem] at h
    cases hsc : (siblings cs cs [])[i]? with
    | none => rw [hsc] at h; cases h
    | some sc =>
      rw [hsc] at h
      have hn : node L sc.2 (path ++ "/" ++ sc.1) (redacted || isSensitive L t) = n :=
        Option.some.inj h
      refine ⟨_, sc.1, rfl, ?_⟩
      rw [← hn, node_path, node_path]
  | cons j p ih =>
    rw [List.cons_append, Node.at?, node_getElem] at h
    rw [Node.at?, node_getElem]
    cases hsc : (siblings cs cs [])[j]? with
    | none => rw [hsc] at h; cases h
    | some sc =>
      rw [hsc] at h
      obtain ⟨seg, t', a', x', cs'⟩ := sc
      exact ih _ _ _ _ h

theorem walk_at? (L : Lowercase) (mounts : List (String × String)) (n : Node) (p : List Nat) :
    (ConfigMap.walk L mounts n).at? p = (n.at? p).map (ConfigMap.walk L mounts) := by
  induction p generalizing n with
  | nil => rfl
  | cons i p ih =>
    obtain ⟨tag, path, attributes, children, value, sensitive⟩ := n
    have hall : ∀ cs : List Node, walkAll L mounts cs = cs.map (ConfigMap.walk L mounts) := by
      intro cs
      induction cs with
      | nil => rfl
      | cons c cs ih => rw [walkAll, List.map_cons, ih]
    rw [ConfigMap.walk, Annotated.at?, Annotated.children, Node.at?, Node.children, hall,
      List.getElem?_map]
    cases children[i]? with
    | none => rfl
    | some c => exact ih c

/-! ### Normal forms -/

theorem splitPath_ne_nil (path : String) : splitPath path ≠ [] := by
  simp [splitPath, List.splitOn_ne_nil]

theorem splitPath_segment (a b : String) :
    splitPath (a ++ "/" ++ b) = splitPath a ++ splitPath b := by
  unfold splitPath
  rw [String.toList_append, String.toList_append, List.append_assoc,
    show "/".toList ++ b.toList = '/' :: b.toList from rfl, List.splitOn_append_cons_self,
    List.map_append]

theorem norm_segment (L : Lowercase) (a b : String) :
    norm L (a ++ "/" ++ b) = norm L a ++ "/" ++ norm L b := by
  have hne : ∀ a : String, (splitPath a).map stripIndex ≠ [] := by
    intro a
    simp [splitPath_ne_nil]
  unfold ConfigMap.norm
  rw [L.slash, splitPath_segment, List.map_append,
    String.intercalate_append_of_ne_nil (hne _) (hne _)]

theorem mem_of_stripIndex {c : Char} {seg : String} (h : c ∈ (stripIndex seg).toList) :
    c ∈ seg.toList := by
  unfold stripIndex at h
  split at h
  case h_1 rest hrest =>
    split at h
    case h_1 front hfront =>
      split at h
      · exact h
      · have hmem : c ∈ rest.dropWhile Char.isDigit := by
          rw [hfront]
          exact List.mem_cons_of_mem _ (by simpa using h)
        have hrev : c ∈ seg.toList.reverse := by
          rw [hrest]
          exact List.mem_cons_of_mem _ ((List.dropWhile_sublist _).subset hmem)
        exact List.mem_reverse.mp hrev
    case h_2 => exact h
  case h_2 => exact h

theorem norm_of_noSlash (L : Lowercase) {path : String} (h : '/' ∉ path.toList) :
    '/' ∉ (norm L path).toList ∧ (splitPath path).length = 1 := by
  have hone : ∀ {s : String}, '/' ∉ s.toList → splitPath s = [s] := by
    intro s hs
    rw [splitPath, List.splitOn_eq_singleton hs, List.map_singleton, String.ofList_toList]
  refine ⟨fun hm => ?_, by rw [hone h]; rfl⟩
  unfold ConfigMap.norm at hm
  rw [hone (L.noSlash path h), List.map_singleton, String.intercalate_singleton] at hm
  exact L.noSlash path h (mem_of_stripIndex hm)

theorem norm_slashes (L : Lowercase) (path : String) :
    (norm L path).toList.count '/' + 1 = (splitPath path).length := by
  induction hlen : path.length using Nat.strong_induction_on generalizing path with
  | h n ih =>
    by_cases hslash : '/' ∈ path.toList
    · obtain ⟨xs, ys, hxy⟩ := List.append_of_mem hslash
      have hpath : path = String.ofList xs ++ "/" ++ String.ofList ys := by
        apply String.toList_injective
        simp [hxy]
      have hsum : xs.length + ys.length + 1 = n := by
        rw [← hlen, hpath]
        simp only [String.length_append, String.length_ofList, show "/".length = 1 from rfl]
        omega
      have hx := ih xs.length (by omega) (String.ofList xs) (by simp)
      have hy := ih ys.length (by omega) (String.ofList ys) (by simp)
      rw [hpath, norm_segment, splitPath_segment, List.length_append, ← hx, ← hy,
        String.toList_append, String.toList_append, List.count_append, List.count_append]
      have hsep : "/".toList.count '/' = 1 := by decide
      omega
    · obtain ⟨hnorm, hone⟩ := norm_of_noSlash L hslash
      rw [List.count_eq_zero.mpr hnorm, hone]

theorem covers_parent {mount path seg : String} (h : covers mount (path ++ "/" ++ seg) = true)
    (hparent : covers mount path = false) : (path ++ "/").toList <+: mount.toList := by
  have hpre : (path ++ "/").toList <+: (path ++ "/" ++ seg).toList :=
    ⟨seg.toList, by simp [String.toList_append]⟩
  unfold covers at h hparent
  rw [Bool.or_eq_true, decide_eq_true_eq, decide_eq_true_eq] at h
  rw [Bool.or_eq_false_iff, decide_eq_false_iff_not, decide_eq_false_iff_not] at hparent
  have hend : ∀ s : String, (s ++ "/").toList = s.toList ++ ['/'] := fun s =>
    String.toList_append
  rcases h with h | h
  · rw [← h]
    exact hpre
  · rcases List.prefix_or_prefix_of_prefix hpre h with hle | hle
    · rw [hend mount, List.prefix_concat_iff] at hle
      rcases hle with heq | hle
      · rw [hend] at heq
        exact absurd (String.toList_injective (List.append_cancel_right heq)) hparent.1
      · exact hle
    · rw [hend path, List.prefix_concat_iff] at hle
      rcases hle with heq | hle
      · rw [hend] at heq
        exact absurd (String.toList_injective (List.append_cancel_right heq)).symm hparent.1
      · exact absurd hle hparent.2

/-! ### Agreement -/

/-- The node at the address lies in the subtree `root.find(xml_path)`.  The
tree has no node for the volatile children of the root, so the search is made
without them; `find("")` gives nothing. -/
def InSubtree (root : Elem) (xmlPath : String) (p : List Nat) : Prop :=
  xmlPath ≠ "" ∧
    ∃ q, (Elem.locateAll (stripVolatile root) (splitPath xmlPath)).head? = some q ∧ q <+: p

/-- The map and the reader mean the same subtrees of the document: a node is
editable if it lies in the subtree of some model, and the model it reports is
the one of these with the longest mount. -/
structure MapAgrees (L : Lowercase) (root : Elem) (catalog : Catalog) : Prop where
  editable : ∀ p n, (annotateWithCatalog L (buildTree L root) catalog).at? p = some n →
    (n.editable = true ↔ ∃ kv ∈ catalog, InSubtree root kv.2.xmlPath p)
  deepest : ∀ p n, (annotateWithCatalog L (buildTree L root) catalog).at? p = some n →
    ∀ key, n.catalogModelId = some key → ∀ m, (key, m) ∈ catalog → InSubtree root m.xmlPath p ∧
      ∀ kv ∈ catalog, InSubtree root kv.2.xmlPath p →
        (splitPath kv.2.xmlPath).length ≤ (splitPath m.xmlPath).length

def Marked (L : Lowercase) (root : Elem) (xmlPath : String) (p : List Nat) : Prop :=
  ∃ n, (buildTree L root).at? p = some n ∧ covers (norm L xmlPath) (norm L n.path) = true

theorem coveringModel_some {L : Lowercase} {catalog : Catalog} {normPath key : String}
    (h : coveringModel normPath (modelMounts L catalog) = some key) :
    ∃ m, (key, m) ∈ catalog ∧ m.xmlPath ≠ "" ∧ covers (norm L m.xmlPath) normPath = true := by
  obtain ⟨mount, hfind, rfl⟩ := Option.map_eq_some_iff.mp h
  have hcovers := List.find?_some hfind
  have hmem := (List.mem_insertionSort _).mp (List.mem_of_find?_eq_some hfind)
  obtain ⟨kv, hkv, rfl⟩ := List.mem_map.mp hmem
  obtain ⟨hin, hne⟩ := List.mem_filter.mp hkv
  exact ⟨kv.2, hin, by simpa using hne, hcovers⟩

theorem coveringModel_isSome {L : Lowercase} {catalog : Catalog} {normPath : String}
    {kv : String × Model} (hkv : kv ∈ catalog) (hne : kv.2.xmlPath ≠ "")
    (h : covers (norm L kv.2.xmlPath) normPath = true) :
    (coveringModel normPath (modelMounts L catalog)).isSome := by
  rw [coveringModel, Option.isSome_map, List.find?_isSome]
  refine ⟨(norm L kv.2.xmlPath, kv.1), (List.mem_insertionSort _).mpr ?_, h⟩
  exact List.mem_map.mpr ⟨kv, List.mem_filter.mpr ⟨hkv, by simpa using hne⟩, rfl⟩

theorem annotated_at? {L : Lowercase} {root : Elem} (catalog : Catalog) {p : List Nat} {n : Node}
    (h : (buildTree L root).at? p = some n) :
    ∃ n', (annotateWithCatalog L (buildTree L root) catalog).at? p = some n' ∧
      n'.editable = (coveringModel (norm L n.path) (modelMounts L catalog)).isSome ∧
      n'.catalogModelId = coveringModel (norm L n.path) (modelMounts L catalog) := by
  refine ⟨ConfigMap.walk L (modelMounts L catalog) n, ?_, ?_, ?_⟩
  · rw [annotateWithCatalog, walk_at?, h, Option.map_some]
  · obtain ⟨tag, path, attributes, children, value, sensitive⟩ := n
    rfl
  · obtain ⟨tag, path, attributes, children, value, sensitive⟩ := n
    rfl

theorem length_le_slashes {L : Lowercase} {root : Elem} {p : List Nat} {n : Node}
    (h : (buildTree L root).at? p = some n) : p.length ≤ (norm L n.path).toList.count '/' := by
  induction p using List.reverseRecOn generalizing n with
  | nil => exact Nat.zero_le _
  | append_singleton p i ih =>
    obtain ⟨m, seg, hm, hpath⟩ := path_of_child L h
    have hp := ih hm
    rw [hpath, norm_segment, String.toList_append, String.toList_append, List.count_append,
      List.count_append, List.length_append, List.length_singleton]
    have hsep : "/".toList.count '/' = 1 := by decide
    omega

theorem first_marked {L : Lowercase} {root : Elem} {xmlPath : String} {p : List Nat}
    (h : Marked L root xmlPath p) :
    ∃ q, q <+: p ∧ Marked L root xmlPath q ∧ q.length < (splitPath xmlPath).length := by
  induction p using List.reverseRecOn with
  | nil => exact ⟨[], List.nil_prefix, h, List.length_pos_iff.mpr (splitPath_ne_nil _)⟩
  | append_singleton p i ih =>
    obtain ⟨n, hn, hcovers⟩ := h
    obtain ⟨m, seg, hm, hpath⟩ := path_of_child L hn
    by_cases hparent : covers (norm L xmlPath) (norm L m.path) = true
    · obtain ⟨q, hq, hmarked, hlen⟩ := ih ⟨m, hm, hparent⟩
      exact ⟨q, hq.trans (List.prefix_append _ _), hmarked, hlen⟩
    · refine ⟨p ++ [i], List.prefix_rfl, ⟨n, hn, hcovers⟩, ?_⟩
      rw [hpath, norm_segment] at hcovers
      have hpre := covers_parent hcovers (by simpa using hparent)
      have hcount := hpre.sublist.count_le '/'
      have hdepth := length_le_slashes hm
      rw [String.toList_append, List.count_append] at hcount
      have hsep : "/".toList.count '/' = 1 := by decide
      rw [← norm_slashes L, List.length_append, List.length_singleton]
      omega

theorem find_eq_none_iff (el : Elem) (path : List String) :
    el.find path = none ↔ (Elem.locateAll el path).head? = none := by
  rw [Elem.find, List.head?_eq_none_iff, List.head?_eq_none_iff, ← List.map_eq_nil_iff (f := some),
    ← locateAll_findall, List.map_eq_nil_iff]

theorem Marked.editable {L : Lowercase} {root : Elem} {catalog : Catalog} {key : String}
    {m : Model} {p : List Nat} (h : Marked L root m.xmlPath p) (hm : (key, m) ∈ catalog)
    (hne : m.xmlPath ≠ "") :
    ∃ n', (annotateWithCatalog L (buildTree L root) catalog).at? p = some n' ∧
      n'.editable = true := by
  obtain ⟨n, hn, hcovers⟩ := h
  obtain ⟨n', hn', hedit, -⟩ := annotated_at? catalog hn
  exact ⟨n', hn', hedit.trans (coveringModel_isSome hm hne hcovers)⟩

/-- In a map that agrees, no model is found.  By induction on the segments of
its mount. -/
theorem MapAgrees.not_found {L : Lowercase} {root : Elem} {catalog : Catalog}
    (h : MapAgrees L root catalog) {kv : String × Model} (hkv : kv ∈ catalog)
    (hne : kv.2.xmlPath ≠ "") {q : List Nat}
    (hq : (Elem.locateAll (stripVolatile root) (splitPath kv.2.xmlPath)).head? = some q) :
    False := by
  induction hlen : (splitPath kv.2.xmlPath).length using Nat.strong_induction_on
    generalizing kv q with
  | h k ih =>
    have hmem := List.mem_of_head? hq
    have hqlen := length_of_locate hmem
    obtain ⟨n, hn⟩ := Option.isSome_iff_exists.mp
      (node_at? L root.tag false (at?_of_locate hmem))
    -- the element found is marked by a model that is found at or above it
    obtain ⟨n', hn', hedit, hmodel⟩ := annotated_at? catalog hn
    have hmarked := (h.editable q n' hn').mpr ⟨kv, hkv, hne, q, hq, List.prefix_rfl⟩
    rw [hedit] at hmarked
    obtain ⟨key, hkey⟩ := Option.isSome_iff_exists.mp hmarked
    obtain ⟨m, hm, hmne, hcovers⟩ := coveringModel_some hkey
    obtain ⟨⟨-, q₁, hq₁, hpre₁⟩, -⟩ := h.deepest q n' hn' key (hmodel.trans hkey) m hm
    have hlen₁ := length_of_locate (List.mem_of_head? hq₁)
    have hle₁ := hpre₁.length_le
    -- the first node it marks lies in the subtree of a shorter mount
    obtain ⟨q₂, -, hmarked₂, hlt₂⟩ := first_marked ⟨n, hn, hcovers⟩
    obtain ⟨n₂, hn₂, hedit₂⟩ := hmarked₂.editable hm hmne
    obtain ⟨kv₃, hkv₃, hne₃, q₃, hq₃, hpre₃⟩ := (h.editable q₂ n₂ hn₂).mp hedit₂
    have hlen₃ := length_of_locate (List.mem_of_head? hq₃)
    have hle₃ := hpre₃.length_le
    exact ih _ (by omega) hkv₃ hne₃ hq₃ rfl

/-- **The map agrees with the reader exactly where no mount leads anywhere for
either of them.** -/
theorem map_agrees_iff (L : Lowercase) (root : Elem) (catalog : Catalog) :
    MapAgrees L root catalog ↔
      ∀ kv ∈ catalog, kv.2.xmlPath ≠ "" →
        (stripVolatile root).find (splitPath kv.2.xmlPath) = none ∧
          ∀ p, ¬ Marked L root kv.2.xmlPath p := by
  constructor
  · intro h kv hkv hne
    constructor
    · rw [find_eq_none_iff]
      by_contra hfound
      obtain ⟨q, hq⟩ := Option.ne_none_iff_exists'.mp hfound
      exact h.not_found hkv hne hq
    · intro p hmarked
      obtain ⟨n, hn, hedit⟩ := hmarked.editable hkv hne
      obtain ⟨kv', hkv', hne', q, hq, -⟩ := (h.editable p n hn).mp hedit
      exact h.not_found hkv' hne' hq
  · intro h
    have hout : ∀ kv ∈ catalog, ∀ p, ¬ InSubtree root kv.2.xmlPath p := by
      rintro kv hkv p ⟨hne, q, hq, -⟩
      have hnone := (find_eq_none_iff _ _).mp (h kv hkv hne).1
      rw [hnone] at hq
      cases hq
    have hfree : ∀ p n', (annotateWithCatalog L (buildTree L root) catalog).at? p = some n' →
        n'.editable = false ∧ n'.catalogModelId = none := by
      intro p n' hn'
      rw [annotateWithCatalog, walk_at?] at hn'
      obtain ⟨n, hn, -⟩ := Option.map_eq_some_iff.mp hn'
      obtain ⟨n'', hn'', hedit, hmodel⟩ := annotated_at? catalog hn
      rw [annotateWithCatalog, walk_at?, hn'] at hn''
      obtain rfl := Option.some.inj hn''
      have hnone : coveringModel (norm L n.path) (modelMounts L catalog) = none := by
        by_contra hsome
        obtain ⟨key, hkey⟩ := Option.ne_none_iff_exists'.mp hsome
        obtain ⟨m, hm, hne, hcovers⟩ := coveringModel_some hkey
        exact (h (key, m) hm hne).2 p ⟨n, hn, hcovers⟩
      rw [hedit, hmodel, hnone]
      exact ⟨rfl, rfl⟩
    constructor
    · intro p n' hn'
      rw [(hfree p n' hn').1]
      constructor
      · intro hfalse
        cases hfalse
      · rintro ⟨kv, hkv, hin⟩
        exact absurd hin (hout kv hkv p)
    · intro p n' hn' key hkey
      rw [(hfree p n' hn').2] at hkey
      cases hkey

/-- The document of a device with Unbound, and a catalog with its model. -/
def unboundDocument : Elem :=
  .mk "opnsense" [] "" [.mk "OPNsense" [] "" [.mk "unboundplus" [] "" [.mk "general" [] "1" []]]]

def unboundCatalog : Catalog :=
  [("unbound", ⟨"unbound", "unbound", "OPNsense/unboundplus", [], [], []⟩)]

/-- The revert reads the subtree of Unbound, and the map shows it as read-only. -/
theorem unbound_not_agrees : ¬ MapAgrees asciiLower unboundDocument unboundCatalog := by
  intro h
  have hread : InSubtree unboundDocument "OPNsense/unboundplus" [0, 0] :=
    ⟨by decide, [0, 0], by decide +kernel, List.prefix_rfl⟩
  have hshown : ((annotateWithCatalog asciiLower (buildTree asciiLower unboundDocument)
      unboundCatalog).at? [0, 0]).map Annotated.editable = some false := by decide +kernel
  obtain ⟨n, hn, hedit⟩ := Option.map_eq_some_iff.mp hshown
  have hin := (h.editable [0, 0] n hn).mpr ⟨_, List.mem_cons_self, hread⟩
  rw [hedit] at hin
  cases hin

end Opngms
