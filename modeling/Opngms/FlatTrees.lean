/-
Opngms/FlatTrees.lean

What the flattened map of a document keeps (`_flatten`,
`app/services/config_diff.py`).

Where no tag and no attribute name has a slash, an at sign or a bracket, a
path is read segment by segment: an attribute starts with `@`, a child with its
tag, which a number follows if the tag repeats.  Below one segment lies one
child, so the map of an element gives the maps of its children, and by
induction over the tree the map gives the tree, up to what `canonical` drops:
the text of elements with children, the white space around the text of leaves,
the order of attributes, and the relative order of siblings with different
tags.

Main result: **`flatten_exact`**.
-/
import Mathlib.Data.List.DropRight
import Mathlib.Data.String.Basic
import Opngms.ConfigPaths
import Opngms.StableSort

namespace Opngms.ConfigDiff

/-! ### The tree that is kept -/

mutual

/-- The element with its attributes by name, its children by tag, and text only in leaves,
stripped. -/
def canonical : Elem → Elem
  | .mk t a x cs =>
    .mk t (sortBy Prod.fst a) (if cs.isEmpty then strip x else "")
      (sortBy Elem.tag (canonicalAll cs))

def canonicalAll : List Elem → List Elem
  | [] => []
  | c :: cs => canonical c :: canonicalAll cs

end

theorem canonicalAll_eq (cs : List Elem) : canonicalAll cs = cs.map canonical := by
  induction cs with
  | nil => rw [canonicalAll, List.map_nil]
  | cons c cs ih => rw [canonicalAll, List.map_cons, ih]

@[simp] theorem canonical_tag (el : Elem) : (canonical el).tag = el.tag := by
  obtain ⟨t, a, x, cs⟩ := el
  rw [canonical]
  rfl

theorem filter_canonical (cs : List Elem) (k : String) :
    (cs.map canonical).filter (fun c => c.tag = k) =
      (cs.filter fun c => c.tag = k).map canonical := by
  rw [List.filter_map]
  refine congrArg _ (List.filter_congr fun c _ => ?_)
  simp

theorem canonical_eq_iff {t t' x x' : String} {a a' : List (String × String)}
    {cs cs' : List Elem} :
    canonical (.mk t a x cs) = canonical (.mk t' a' x' cs') ↔
      t = t' ∧ sortBy Prod.fst a = sortBy Prod.fst a' ∧
      (if cs.isEmpty then strip x else "") = (if cs'.isEmpty then strip x' else "") ∧
      ∀ k, (cs.filter fun c => c.tag = k).map canonical =
        (cs'.filter fun c => c.tag = k).map canonical := by
  rw [canonical, canonical, canonicalAll_eq, canonicalAll_eq, Elem.mk.injEq,
    @sortBy_eq_iff Elem String _ Elem.tag]
  simp only [filter_canonical]

theorem strip_strip (s : String) : strip (strip s) = strip s := by
  have hlist : ∀ l : List Char, (((l.dropWhile isSpace).rdropWhile isSpace).dropWhile
      isSpace).rdropWhile isSpace = (l.dropWhile isSpace).rdropWhile isSpace := by
    intro l
    have hfront : ((l.dropWhile isSpace).rdropWhile isSpace).dropWhile isSpace =
        (l.dropWhile isSpace).rdropWhile isSpace := by
      refine List.dropWhile_eq_self_iff.mpr fun hpos => ?_
      have hpre := List.rdropWhile_prefix isSpace (l := l.dropWhile isSpace)
      have hlen : 0 < (l.dropWhile isSpace).length := lt_of_lt_of_le hpos hpre.length_le
      have hget := hpre.getElem hpos
      rw [hget]
      exact List.dropWhile_get_zero_not isSpace l hlen
    rw [hfront, List.rdropWhile_idempotent]
  unfold strip
  rw [String.toList_ofList]
  exact congrArg String.ofList (hlist s.toList)

/-! ### Segments -/

def FreeName (s : String) : Prop := ∀ c ∈ s.toList, c ∉ ['/', '@', '[', ']']

/-- The names of the element are free, and no attribute stands twice. -/
structure FreeNames (el : Elem) : Prop where
  tag : FreeName el.tag
  attrib : ∀ kv ∈ el.attrib, FreeName kv.1
  nodup : (el.attrib.map (·.1)).Nodup

/-- Every element of the document has free names. -/
def Separable (root : Elem) : Prop := ∀ el ∈ root.iter, FreeNames el

instance (s : String) : Decidable (FreeName s) :=
  List.decidableBAll _ _

instance (el : Elem) : Decidable (FreeNames el) :=
  decidable_of_iff
    (FreeName el.tag ∧ (∀ kv ∈ el.attrib, FreeName kv.1) ∧ (el.attrib.map (·.1)).Nodup)
    ⟨fun h => ⟨h.1, h.2.1, h.2.2⟩, fun h => ⟨h.tag, h.attrib, h.nodup⟩⟩

instance (root : Elem) : Decidable (Separable root) :=
  List.decidableBAll _ _

theorem Separable.self {root : Elem} (h : Separable root) : FreeNames root := by
  refine h root ?_
  cases root
  exact List.mem_cons_self

theorem Separable.child {t x : String} {a : List (String × String)} {cs : List Elem}
    (h : Separable (.mk t a x cs)) {c : Elem} (hc : c ∈ cs) : Separable c :=
  fun el hel => h el (List.mem_cons_of_mem _ (Elem.mem_iterAll.mpr ⟨c, hc, hel⟩))

theorem Separable.stripVolatile {root : Elem} (h : Separable root) :
    Separable (stripVolatile root) := by
  obtain ⟨t, a, x, cs⟩ := root
  intro el hel
  rcases List.mem_cons.mp hel with rfl | hel
  · exact ⟨h.self.tag, h.self.attrib, h.self.nodup⟩
  · obtain ⟨c, hc, hel⟩ := Elem.mem_iterAll.mp hel
    exact h.child (List.mem_of_mem_filter hc) el hel

def IsTail (r : List Char) : Prop := r = [] ∨ ∃ r', r = '/' :: r'

/-- A segment of a child has no slash and does not look like an attribute. -/
structure IsSegment (s : String) : Prop where
  slash : '/' ∉ s.toList
  attrib : ∀ r, IsTail r → ∀ n, s.toList ++ r ≠ '@' :: n

theorem segment_unique {s s' r r' : List Char} (hs : '/' ∉ s) (hs' : '/' ∉ s') (hr : IsTail r)
    (hr' : IsTail r') (h : s ++ r = s' ++ r') : s = s' ∧ r = r' := by
  induction s generalizing s' with
  | nil =>
    cases s' with
    | nil => exact ⟨rfl, h⟩
    | cons c s' =>
      rcases hr with rfl | ⟨q, rfl⟩
      · cases h
      · obtain ⟨rfl, -⟩ := List.cons.inj h
        exact absurd List.mem_cons_self hs'
  | cons c s ih =>
    cases s' with
    | nil =>
      rcases hr' with rfl | ⟨q, rfl⟩
      · cases h
      · obtain ⟨rfl, -⟩ := List.cons.inj h
        exact absurd List.mem_cons_self hs
    | cons c' s' =>
      obtain ⟨rfl, hrest⟩ := List.cons.inj h
      obtain ⟨rfl, hq⟩ := ih (fun hm => hs (List.mem_cons_of_mem c hm))
        (fun hm => hs' (List.mem_cons_of_mem c hm)) hrest
      exact ⟨rfl, hq⟩

/-- The segment of the `i`-th of `n` children with the tag `t`. -/
def segment (n : Nat) (t : String) (i : Nat) : String :=
  if n = 1 then t else t ++ "[" ++ toString i ++ "]"

theorem digits_mem {c : Char} {i : Nat} (h : c ∈ (toString i).toList) : c.isDigit = true := by
  have hmem : c ∈ Nat.toDigits 10 i := by simpa [Nat.toString_eq_ofList_toDigits] using h
  exact Nat.isDigit_of_mem_toDigits (by decide) (by decide) hmem

theorem isSegment_segment {t : String} (ht : FreeName t) (n i : Nat) :
    IsSegment (segment n t i) := by
  have hindex : '/' ∉ ("[" ++ toString i ++ "]").toList := by
    intro hm
    rw [String.toList_append, String.toList_append, List.mem_append, List.mem_append] at hm
    rcases hm with (hm | hm) | hm
    · revert hm; decide
    · exact absurd (digits_mem hm) (by decide)
    · revert hm; decide
  have hslash : '/' ∉ t.toList := fun hm => ht '/' hm (by decide)
  -- the first character is one of the tag, a bracket, or what follows the segment
  have hhead : ∀ (u r n : List Char), (u = [] ∨ ∃ u', u = '[' :: u') → IsTail r →
      t.toList ++ u ++ r ≠ '@' :: n := by
    intro u r n hu hr h
    cases htl : t.toList with
    | cons c cs =>
      rw [htl] at h
      obtain ⟨rfl, -⟩ := List.cons.inj h
      exact ht '@' (by rw [htl]; exact List.mem_cons_self) (by decide)
    | nil =>
      rw [htl] at h
      rcases hu with rfl | ⟨u', rfl⟩
      · rcases hr with rfl | ⟨r', rfl⟩ <;> exact absurd h (by simp)
      · exact absurd h (by simp)
  unfold segment
  split
  · refine ⟨hslash, fun r hr n => ?_⟩
    have h := hhead [] r n (.inl rfl) hr
    rwa [List.append_nil] at h
  · refine ⟨?_, fun r hr n => ?_⟩
    · rw [String.append_assoc, String.append_assoc, String.toList_append, List.mem_append,
        ← String.append_assoc]
      exact fun hm => hm.elim hslash hindex
    · rw [String.append_assoc, String.append_assoc, String.toList_append, ← String.append_assoc]
      refine hhead _ r n (.inr ⟨(toString i).toList ++ "]".toList, ?_⟩) hr
      rw [String.toList_append, String.toList_append, List.append_assoc]
      rfl

theorem segment_inj {t t' : String} (ht : FreeName t) (ht' : FreeName t') {n n' i i' : Nat}
    (h : segment n t i = segment n' t' i') :
    t = t' ∧ (n = 1 ∧ n' = 1 ∨ n ≠ 1 ∧ n' ≠ 1 ∧ i = i') := by
  have hplain : ∀ {t : String}, FreeName t → ∀ (u : String) (i : Nat), t ≠ u ++ "[" ++ toString i ++ "]" := by
    rintro t ht u i rfl
    exact ht ']' (by simp [String.toList_append]) (by decide)
  unfold segment at h
  split at h
  · rename_i hn
    split at h
    · rename_i hn'
      exact ⟨h, .inl ⟨hn, hn'⟩⟩
    · exact absurd h (hplain ht _ _)
  · rename_i hn
    split at h
    · exact absurd h.symm (hplain ht' _ _)
    · rename_i hn'
      obtain ⟨htag, hi⟩ := indexed_inj h
      exact ⟨htag, .inr ⟨hn, hn', hi⟩⟩

/-- **The siblings of one tag are numbered in order.** -/
theorem mem_siblings_iff {todo all : List Elem} {seen : List String} {s : String} {c : Elem} :
    (s, c) ∈ siblings todo all seen ↔ ∃ i, (todo.filter fun d => d.tag = c.tag)[i]? = some c ∧
      s = segment (tagTotal all c.tag) c.tag ((seen.filter (· == c.tag)).length + (i + 1)) := by
  induction todo generalizing seen with
  | nil => simp [siblings]
  | cons d todo ih =>
    rw [siblings, List.mem_cons, ih]
    by_cases hd : d.tag = c.tag
    · rw [List.filter_cons_of_pos (by simpa using hd), List.filter_cons_of_pos (by simpa using hd)]
      constructor
      · rintro (h | ⟨i, hi, hs⟩)
        · obtain ⟨rfl, rfl⟩ := Prod.mk.inj h
          exact ⟨0, rfl, rfl⟩
        · refine ⟨i + 1, hi, ?_⟩
          rw [hs, List.length_cons]
          congr 1
          omega
      · rintro ⟨i, hi, hs⟩
        cases i with
        | zero =>
          obtain rfl : d = c := Option.some.inj hi
          exact .inl (Prod.ext hs rfl)
        | succ i =>
          refine .inr ⟨i, hi, ?_⟩
          rw [hs, List.length_cons]
          congr 1
          omega
    · rw [List.filter_cons_of_neg (by simpa using hd), List.filter_cons_of_neg (by simpa using hd)]
      refine ⟨fun h => h.resolve_left ?_, .inr⟩
      rintro he
      obtain ⟨-, rfl⟩ := Prod.mk.inj he
      exact hd rfl

/-! ### Entries -/

theorem walk_mk (t x path : String) (a : List (String × String)) (cs : List Elem) :
    walk (.mk t a x cs) path = a.map (fun kv => (path ++ "/@" ++ kv.1, kv.2)) ++
      (if cs.isEmpty then [(path, strip x)] else
        (siblings cs cs []).flatMap fun sc => walk sc.2 (path ++ "/" ++ sc.1)) := by
  rw [walk, walkChildren_eq]

theorem walk_eq_map (el : Elem) :
    ∀ path, walk el path = (walk el "").map fun kv => (path ++ kv.1, kv.2) := by
  induction el using Elem.induction with
  | h t a x cs ih =>
    intro path
    rw [walk_mk, walk_mk, List.map_append, List.map_map]
    congr 1
    · refine List.map_congr_left fun kv _ => ?_
      simp [String.append_assoc]
    · split
      · simp
      · rw [List.map_flatMap]
        refine List.flatMap_congr fun sc hsc => ?_
        rw [ih sc.2 (mem_of_siblings hsc), ih sc.2 (mem_of_siblings hsc) ("" ++ "/" ++ sc.1),
          List.map_map]
        refine List.map_congr_left fun kv _ => ?_
        simp [String.append_assoc]

theorem mem_walk {t x k v : String} {a : List (String × String)} {cs : List Elem} :
    (k, v) ∈ walk (.mk t a x cs) "" ↔ (∃ n, (n, v) ∈ a ∧ k = "/@" ++ n) ∨
      (cs = [] ∧ k = "" ∧ v = strip x) ∨
      ∃ sc ∈ siblings cs cs [], ∃ k', (k', v) ∈ walk sc.2 "" ∧ k = "/" ++ sc.1 ++ k' := by
  rw [walk_mk, List.mem_append]
  refine or_congr ?_ ?_
  · simp only [List.mem_map, Prod.mk.injEq, String.empty_append]
    constructor
    · rintro ⟨⟨n, w⟩, hm, rfl, rfl⟩
      exact ⟨n, hm, rfl⟩
    · rintro ⟨n, hm, rfl⟩
      exact ⟨(n, v), hm, rfl, rfl⟩
  · cases cs with
    | nil => simp [siblings]
    | cons c cs =>
      rw [if_neg (by simp), List.mem_flatMap]
      simp only [reduceCtorEq, false_and, false_or]
      refine exists_congr fun sc => and_congr_right fun _ => ?_
      rw [walk_eq_map, List.mem_map]
      constructor
      · rintro ⟨⟨k', w⟩, hm, he⟩
        obtain ⟨rfl, rfl⟩ := Prod.mk.inj he
        exact ⟨k', hm, by simp⟩
      · rintro ⟨k', hm, rfl⟩
        exact ⟨(k', v), hm, by simp⟩

theorem isTail_of_mem {el : Elem} {k v : String} (h : (k, v) ∈ walk el "") : IsTail k.toList := by
  obtain ⟨t, a, x, cs⟩ := el
  rcases mem_walk.1 h with ⟨n, -, rfl⟩ | ⟨-, rfl, -⟩ | ⟨sc, -, k', -, rfl⟩
  · exact .inr ⟨'@' :: n.toList, by rw [String.toList_append]; rfl⟩
  · exact .inl rfl
  · refine .inr ⟨sc.1.toList ++ k'.toList, ?_⟩
    rw [String.toList_append, String.toList_append]
    rfl

theorem exists_mem_walk (el : Elem) : ∃ k v, (k, v) ∈ walk el "" := by
  induction el using Elem.induction with
  | h t a x cs ih =>
    cases cs with
    | nil => exact ⟨"", strip x, mem_walk.2 (.inr (.inl ⟨rfl, rfl, rfl⟩))⟩
    | cons c cs =>
      obtain ⟨k, v, hkv⟩ := ih c List.mem_cons_self
      refine ⟨_, v, mem_walk.2 (.inr (.inr ⟨_, List.mem_cons_self, k, hkv, rfl⟩))⟩

theorem isSegment_of_siblings {cs : List Elem} {sc : String × Elem}
    (h : sc ∈ siblings cs cs []) (ht : FreeName sc.2.tag) : IsSegment sc.1 := by
  obtain ⟨i, -, hs⟩ := mem_siblings_iff.1 h
  rw [hs]
  exact isSegment_segment ht _ _

section Entries

variable {t x : String} {a : List (String × String)} {cs : List Elem}

theorem segment_slash {s k s' k' : String} (hs : IsSegment s) (hs' : IsSegment s')
    (hk : IsTail k.toList) (hk' : IsTail k'.toList) (h : "/" ++ s ++ k = "/" ++ s' ++ k') :
    s = s' ∧ k = k' := by
  have hchars := congrArg String.toList h
  rw [String.toList_append, String.toList_append, String.toList_append, String.toList_append,
    List.append_assoc, List.append_assoc] at hchars
  obtain ⟨h₁, h₂⟩ := segment_unique hs.slash hs'.slash hk hk' (List.append_cancel_left hchars)
  exact ⟨String.toList_injective h₁, String.toList_injective h₂⟩

theorem attrib_ne_child {n s k : String} (hs : IsSegment s) (hk : IsTail k.toList) :
    "/@" ++ n ≠ "/" ++ s ++ k := by
  intro h
  have hchars := congrArg String.toList h
  rw [String.toList_append, String.toList_append, String.toList_append, List.append_assoc] at hchars
  exact hs.attrib _ hk n.toList (List.cons.inj hchars).2.symm

theorem empty_ne_child {s k : String} : "" ≠ "/" ++ s ++ k := by
  intro h
  have hchars := congrArg String.toList h
  rw [String.toList_append, String.toList_append] at hchars
  cases hchars

theorem empty_ne_attrib {n : String} : "" ≠ "/@" ++ n := by
  intro h
  have hchars := congrArg String.toList h
  rw [String.toList_append] at hchars
  cases hchars

theorem mem_walk_attrib (h : Separable (.mk t a x cs)) {n v : String} :
    ("/@" ++ n, v) ∈ walk (.mk t a x cs) "" ↔ (n, v) ∈ a := by
  rw [mem_walk]
  constructor
  · rintro (⟨n', hm, he⟩ | ⟨-, he, -⟩ | ⟨sc, hsc, k', hm, he⟩)
    · have hchars := congrArg String.toList he
      rw [String.toList_append, String.toList_append] at hchars
      rw [String.toList_injective (List.append_cancel_left hchars)]
      exact hm
    · exact absurd he.symm empty_ne_attrib
    · have hseg := isSegment_of_siblings hsc (h.child (mem_of_siblings hsc)).self.tag
      exact absurd he (attrib_ne_child hseg (isTail_of_mem hm))
  · exact fun hm => .inl ⟨n, hm, rfl⟩

theorem mem_walk_empty {v : String} :
    ("", v) ∈ walk (.mk t a x cs) "" ↔ cs = [] ∧ v = strip x := by
  rw [mem_walk]
  constructor
  · rintro (⟨n', hm, he⟩ | ⟨hcs, -, hv⟩ | ⟨sc, hsc, k', hm, he⟩)
    · exact absurd he empty_ne_attrib
    · exact ⟨hcs, hv⟩
    · exact absurd he empty_ne_child
  · exact fun ⟨hcs, hv⟩ => .inr (.inl ⟨hcs, rfl, hv⟩)

theorem mem_walk_segment (h : Separable (.mk t a x cs)) {s k v : String} (hs : IsSegment s)
    (hk : IsTail k.toList) : ("/" ++ s ++ k, v) ∈ walk (.mk t a x cs) "" ↔
      ∃ c, (s, c) ∈ siblings cs cs [] ∧ (k, v) ∈ walk c "" := by
  rw [mem_walk]
  constructor
  · rintro (⟨n, -, he⟩ | ⟨-, he, -⟩ | ⟨sc, hsc, k', hm, he⟩)
    · exact absurd he.symm (attrib_ne_child hs hk)
    · exact absurd he.symm empty_ne_child
    · have hseg := isSegment_of_siblings hsc (h.child (mem_of_siblings hsc)).self.tag
      obtain ⟨rfl, rfl⟩ := segment_slash hs hseg hk (isTail_of_mem hm) he
      exact ⟨sc.2, hsc, hm⟩
  · exact fun ⟨c, hc, hm⟩ => .inr (.inr ⟨(s, c), hc, k, hm, rfl⟩)

theorem segments_nodup (h : Separable (.mk t a x cs)) :
    ((siblings cs cs []).map (·.1)).Nodup := by
  refine siblings_nodup (fun c hc u he => ?_) fun _ => le_rfl
  refine (h.child hc).self.tag ']' ?_ (by decide)
  rw [he, String.toList_append]
  exact List.mem_append_right _ List.mem_cons_self

theorem child_unique (h : Separable (.mk t a x cs)) {s : String} {c c' : Elem}
    (hc : (s, c) ∈ siblings cs cs []) (hc' : (s, c') ∈ siblings cs cs []) : c = c' :=
  (Prod.mk.inj (List.inj_on_of_nodup_map (segments_nodup h) hc hc' rfl)).2

/-- **No path of an element stands twice.** -/
theorem walk_nodup (el : Elem) : Separable el → ((walk el "").map (·.1)).Nodup := by
  induction el using Elem.induction with
  | h t a x cs ih =>
    intro h
    rw [walk_mk, List.map_append, List.map_map]
    have hattrib : (a.map ((·.1) ∘ fun kv : String × String => ("" ++ "/@" ++ kv.1, kv.2))).Nodup := by
      have hnames : a.map ((·.1) ∘ fun kv : String × String => ("" ++ "/@" ++ kv.1, kv.2)) =
          (a.map (·.1)).map fun n => "" ++ "/@" ++ n := by
        rw [List.map_map]
        rfl
      rw [hnames]
      refine h.self.nodup.map fun n n' he => ?_
      have hchars := congrArg String.toList he
      simp only [String.toList_append] at hchars
      exact String.toList_injective (List.append_cancel_left hchars)
    -- paths of attributes begin with `/@`, those of children do not
    have hof : ∀ n ∈ a.map ((·.1) ∘ fun kv : String × String => ("" ++ "/@" ++ kv.1, kv.2)),
        ∃ m, n = "/@" ++ m := by
      intro n hn
      obtain ⟨kv, -, rfl⟩ := List.mem_map.mp hn
      exact ⟨kv.1, by simp⟩
    cases cs with
    | nil =>
      rw [if_pos List.isEmpty_nil, List.nodup_append]
      refine ⟨hattrib, by simp, fun n hn m hm he => ?_⟩
      obtain ⟨n', rfl⟩ := hof n hn
      obtain rfl : m = "" := by simpa using hm
      exact empty_ne_attrib he.symm
    | cons d ds =>
      rw [if_neg (by simp), List.map_flatMap, List.nodup_append]
      have hkeys : ∀ sc ∈ siblings (d :: ds) (d :: ds) [], ∀ m ∈ (walk sc.2 ("" ++ "/" ++ sc.1)).map
          (·.1), ∃ k, IsTail k.toList ∧ m = "/" ++ sc.1 ++ k := by
        intro sc hsc m hm
        obtain ⟨⟨m, v⟩, hkv, rfl⟩ := List.mem_map.mp hm
        rw [walk_eq_map] at hkv
        obtain ⟨⟨k, w⟩, hk, he⟩ := List.mem_map.mp hkv
        obtain ⟨rfl, rfl⟩ := Prod.mk.inj he
        exact ⟨k, isTail_of_mem hk, by simp⟩
      have hseg : ∀ sc ∈ siblings (d :: ds) (d :: ds) [], IsSegment sc.1 := fun sc hsc =>
        isSegment_of_siblings hsc (h.child (mem_of_siblings hsc)).self.tag
      refine ⟨hattrib, List.nodup_flatMap.mpr ⟨fun sc hsc => ?_, ?_⟩, fun n hn m hm he => ?_⟩
      · have hmem := mem_of_siblings hsc
        have hkeys : (walk sc.2 ("" ++ "/" ++ sc.1)).map (·.1) =
            ((walk sc.2 "").map (·.1)).map fun k => "" ++ "/" ++ sc.1 ++ k := by
          rw [walk_eq_map, List.map_map, List.map_map]
          rfl
        rw [hkeys]
        refine (ih sc.2 hmem (h.child hmem)).map fun k k' he => ?_
        have hchars := congrArg String.toList he
        simp only [String.toList_append] at hchars
        exact String.toList_injective (List.append_cancel_left hchars)
      · -- siblings have different segments, so their paths differ at once
        have hsegs := List.pairwise_map.mp (segments_nodup h)
        refine hsegs.imp_of_mem fun {sc sc'} hsc hsc' hne m hm hm' => ?_
        obtain ⟨k, hk, rfl⟩ := hkeys sc hsc m hm
        obtain ⟨k', hk', he⟩ := hkeys sc' hsc' _ hm'
        exact hne (segment_slash (hseg sc hsc) (hseg sc' hsc') hk hk' he).1
      · obtain ⟨n', rfl⟩ := hof n hn
        obtain ⟨sc, hsc, hm⟩ := List.mem_flatMap.mp hm
        obtain ⟨k, hk, rfl⟩ := hkeys sc hsc m hm
        exact attrib_ne_child (hseg sc hsc) hk he

end Entries

/-! ### Reading the tree back -/

section Reading

variable {t x t' x' : String} {a a' : List (String × String)} {cs cs' : List Elem}

theorem child_matches (h : Separable (.mk t a x cs)) (h' : Separable (.mk t' a' x' cs'))
    (hsub : ∀ kv ∈ walk (.mk t a x cs) "", kv ∈ walk (.mk t' a' x' cs') "") {i : Nat} {c : Elem}
    (hc : (cs.filter fun d => d.tag = c.tag)[i]? = some c) :
    ∃ s c', (s, c) ∈ siblings cs cs [] ∧ (s, c') ∈ siblings cs' cs' [] ∧ c'.tag = c.tag ∧
      (cs'.filter fun d => d.tag = c.tag)[i]? = some c' := by
  have hsc : (segment (tagTotal cs c.tag) c.tag (0 + (i + 1)), c) ∈ siblings cs cs [] :=
    mem_siblings_iff.2 ⟨i, hc, rfl⟩
  have hmem := mem_of_siblings hsc
  have htag := (h.child hmem).self.tag
  have hseg := isSegment_of_siblings hsc htag
  obtain ⟨k, v, hkv⟩ := exists_mem_walk c
  have hentry := hsub _ ((mem_walk_segment h hseg (isTail_of_mem hkv)).mpr ⟨c, hsc, hkv⟩)
  obtain ⟨c', hsc', -⟩ := (mem_walk_segment h' hseg (isTail_of_mem hkv)).mp hentry
  obtain ⟨j, hj, hs⟩ := mem_siblings_iff.1 hsc'
  have hs : segment (tagTotal cs c.tag) c.tag (0 + (i + 1)) =
    segment (tagTotal cs' c'.tag) c'.tag (0 + (j + 1)) := hs
  obtain ⟨htags, hnum⟩ := segment_inj htag (h'.child (mem_of_siblings hsc')).self.tag hs
  have hij : i = j := by
    rcases hnum with ⟨hn, hn'⟩ | ⟨-, -, hij⟩
    · -- there is one child of the tag on either side
      have hi := (List.getElem?_eq_some_iff.mp hc).1
      have hj := (List.getElem?_eq_some_iff.mp hj).1
      have htotal : ∀ (l : List Elem) (k : String),
          (l.filter fun d => d.tag = k).length = tagTotal l k := by
        intro l k
        rw [tagTotal]
        congr 1
      rw [htotal] at hi hj
      omega
    · omega
  subst hij
  exact ⟨_, c', hsc, hsc', htags.symm, htags ▸ hj⟩

/-- **An element is kept as its entries say.** -/
theorem canonical_of_walk (el : Elem) : ∀ el', Separable el → Separable el' → el.tag = el'.tag →
    (∀ kv, kv ∈ walk el "" ↔ kv ∈ walk el' "") → canonical el = canonical el' := by
  induction el using Elem.induction with
  | h t a x cs ih =>
    rintro ⟨t', a', x', cs'⟩ h h' htag hwalk
    have hempty : ∀ v, (cs = [] ∧ v = strip x) ↔ (cs' = [] ∧ v = strip x') := fun v => by
      rw [← mem_walk_empty (t := t) (a := a), ← mem_walk_empty (t := t') (a := a'), hwalk]
    refine canonical_eq_iff.2 ⟨htag, ?_, ?_, fun k => ?_⟩
    · refine (sortBy_eq_iff_perm h.self.nodup).mpr ?_
      refine (List.perm_ext_iff_of_nodup (h.self.nodup.of_map _) (h'.self.nodup.of_map _)).mpr ?_
      rintro ⟨n, v⟩
      exact (mem_walk_attrib h).symm.trans ((hwalk _).trans (mem_walk_attrib h'))
    · cases cs with
      | nil =>
        obtain ⟨rfl, hx⟩ := (hempty (strip x)).mp ⟨rfl, rfl⟩
        exact hx
      | cons c cs =>
        cases cs' with
        | nil =>
          obtain ⟨hnil, -⟩ := (hempty (strip x')).mpr ⟨rfl, rfl⟩
          cases hnil
        | cons c' cs' => rfl
    · refine List.ext_getElem? fun i => ?_
      rw [List.getElem?_map, List.getElem?_map]
      have htagged : ∀ {l : List Elem} {c : Elem}, (l.filter fun d => d.tag = k)[i]? = some c →
          c.tag = k := fun hc => by
        simpa using (List.mem_filter.mp (List.mem_of_getElem? hc)).2
      cases hc : (cs.filter fun d => d.tag = k)[i]? with
      | none =>
        cases hc' : (cs'.filter fun d => d.tag = k)[i]? with
        | none => rfl
        | some c' =>
          obtain rfl := htagged hc'
          obtain ⟨-, c, -, -, -, hc''⟩ := child_matches h' h (fun kv => (hwalk kv).mpr) hc'
          rw [hc] at hc''
          cases hc''
      | some c =>
        obtain rfl := htagged hc
        obtain ⟨s, c', hs, hs', htags, hc'⟩ := child_matches h h' (fun kv => (hwalk kv).mp) hc
        rw [hc']
        have hmem := mem_of_siblings hs
        have hmem' := mem_of_siblings hs'
        refine congrArg some (ih c hmem c' (h.child hmem) (h'.child hmem') htags.symm ?_)
        have hseg := isSegment_of_siblings hs (h.child hmem).self.tag
        -- both children are what is said below one segment
        have hside : ∀ {t x : String} {a : List (String × String)} {ds : List Elem} {d : Elem},
            Separable (.mk t a x ds) → (s, d) ∈ siblings ds ds [] → ∀ k v, (k, v) ∈ walk d "" ↔
              IsTail k.toList ∧ ("/" ++ s ++ k, v) ∈ walk (.mk t a x ds) "" := by
          intro t x a ds d hd hsd k v
          constructor
          · intro hkv
            have hk := isTail_of_mem hkv
            exact ⟨hk, (mem_walk_segment hd hseg hk).mpr ⟨d, hsd, hkv⟩⟩
          · rintro ⟨hk, hkv⟩
            obtain ⟨d', hsd', hkv⟩ := (mem_walk_segment hd hseg hk).mp hkv
            rw [child_unique hd hsd hsd']
            exact hkv
        rintro ⟨k, v⟩
        rw [hside h hs, hside h' hs', hwalk]

/-- What is dropped leaves no entry. -/
theorem mem_walk_canonical (el : Elem) : ∀ kv, kv ∈ walk (canonical el) "" ↔ kv ∈ walk el "" := by
  induction el using Elem.induction with
  | h t a x cs ih =>
    rintro ⟨k, v⟩
    rw [canonical, canonicalAll_eq, mem_walk, mem_walk]
    have hnil : sortBy Elem.tag (cs.map canonical) = [] ↔ cs = [] := by
      rw [← List.length_eq_zero_iff, (sortBy_perm _).length_eq, List.length_map,
        List.length_eq_zero_iff]
    refine or_congr ?_ (or_congr ?_ ?_)
    · exact exists_congr fun n => and_congr_left fun _ => (sortBy_perm a).mem_iff
    · rw [hnil]
      refine and_congr_right fun hcs => and_congr_right fun _ => ?_
      rw [if_pos (by simp [hcs]), strip_strip]
    · -- the children of each tag are the same, and so are their segments
      have htagged : ∀ k, (sortBy Elem.tag (cs.map canonical)).filter (fun d => d.tag = k) =
          (cs.filter fun d => d.tag = k).map canonical := fun k => by
        rw [filter_sortBy, filter_canonical]
      have htotal : ∀ k, tagTotal (sortBy Elem.tag (cs.map canonical)) k = tagTotal cs k := by
        intro k
        have hlen := congrArg List.length (htagged k)
        rw [List.length_map] at hlen
        exact hlen
      have hsib : ∀ s d, (s, d) ∈ siblings (sortBy Elem.tag (cs.map canonical))
          (sortBy Elem.tag (cs.map canonical)) [] ↔
          ∃ c, (s, c) ∈ siblings cs cs [] ∧ canonical c = d := by
        intro s d
        rw [mem_siblings_iff, htagged, htotal]
        constructor
        · rintro ⟨i, hi, hs⟩
          rw [List.getElem?_map, Option.map_eq_some_iff] at hi
          obtain ⟨c, hc, rfl⟩ := hi
          rw [canonical_tag] at hc hs
          exact ⟨c, mem_siblings_iff.2 ⟨i, hc, hs⟩, rfl⟩
        · rintro ⟨c, hsc, rfl⟩
          obtain ⟨i, hc, hs⟩ := mem_siblings_iff.1 hsc
          refine ⟨i, ?_, by rw [canonical_tag]; exact hs⟩
          rw [canonical_tag, List.getElem?_map, hc]
          rfl
      constructor
      · rintro ⟨⟨s, d⟩, hsd, k', hm, rfl⟩
        obtain ⟨c, hsc, rfl⟩ := (hsib s d).mp hsd
        exact ⟨(s, c), hsc, k', (ih c (mem_of_siblings hsc) _).mp hm, rfl⟩
      · rintro ⟨⟨s, c⟩, hsc, k', hm, rfl⟩
        refine ⟨(s, canonical c), (hsib s _).mpr ⟨c, hsc, rfl⟩, k', ?_, rfl⟩
        exact (ih c (mem_of_siblings hsc) _).mpr hm

end Reading

/-! ### Documents -/

/-- One document is the other with two siblings of one tag, of different content, in each
other's place. -/
inductive Swapped : Elem → Elem → Prop
  | here {t x : String} {a : List (String × String)} {l m r : List Elem} {c d : Elem} :
      c.tag = d.tag → canonical c ≠ canonical d →
      Swapped (.mk t a x (l ++ c :: (m ++ d :: r))) (.mk t a x (l ++ d :: (m ++ c :: r)))
  | inside {t x : String} {a : List (String × String)} {l r : List Elem} {c c' : Elem} :
      Swapped c c' → Swapped (.mk t a x (l ++ c :: r)) (.mk t a x (l ++ c' :: r))

theorem Swapped.tag {el el' : Elem} (h : Swapped el el') : el.tag = el'.tag := by
  cases h <;> rfl

theorem Swapped.canonical_ne {el el' : Elem} (h : Swapped el el') :
    canonical el ≠ canonical el' := by
  induction h with
  | @here t x a l m r c d htag hne =>
    intro he
    have hk := (canonical_eq_iff.1 he).2.2.2 c.tag
    simp only [List.filter_append, List.filter_cons, htag, decide_true, if_true, List.map_append,
      List.map_cons] at hk
    exact hne (List.cons.inj (List.append_cancel_left hk)).1
  | @inside t x a l r c c' hswap ih =>
    intro he
    have hk := (canonical_eq_iff.1 he).2.2.2 c.tag
    have htag : c'.tag = c.tag := hswap.tag.symm
    simp only [List.filter_append, List.filter_cons, htag, decide_true, if_true, List.map_append,
      List.map_cons] at hk
    exact ih (List.cons.inj (List.append_cancel_left hk)).1

theorem stripVolatile_tag (root : Elem) : (stripVolatile root).tag = root.tag := by
  cases root
  rfl

/-- **No path of a document stands twice.** -/
theorem flatten_paths_nodup {root : Elem} (h : Separable root) :
    ((flatten root).map (·.1)).Nodup := by
  have hmoved : (flatten root).map (·.1) =
      ((walk (stripVolatile root) "").map (·.1)).map fun k => root.tag ++ k := by
    rw [flatten, walk_eq_map, List.map_map, List.map_map]
    rfl
  rw [hmoved]
  refine (walk_nodup _ h.stripVolatile).map fun k k' he => ?_
  have hchars := congrArg String.toList he
  rw [String.toList_append, String.toList_append] at hchars
  exact String.toList_injective (List.append_cancel_left hchars)

theorem valueAt_eq_some_iff {root : Elem} (h : Separable root) {path v : String} :
    valueAt root path = some v ↔ (path, v) ∈ flatten root :=
  valueAt_eq_some_of_nodup (flatten_paths_nodup h)

theorem root_tag_eq {a b : Elem} (ha : Separable a) (hb : Separable b)
    (h : ∀ kv, kv ∈ flatten a ↔ kv ∈ flatten b) : a.tag = b.tag := by
  obtain ⟨k, v, hkv⟩ := exists_mem_walk (stripVolatile a)
  have hentry : (a.tag ++ k, v) ∈ flatten a := by
    rw [flatten, walk_eq_map]
    exact List.mem_map_of_mem (f := fun kv : String × String => (a.tag ++ kv.1, kv.2)) hkv
  rw [h, flatten, walk_eq_map] at hentry
  obtain ⟨⟨k', v'⟩, hkv', he⟩ := List.mem_map.mp hentry
  have hchars := congrArg String.toList (Prod.mk.inj he).1
  rw [String.toList_append, String.toList_append] at hchars
  have hslash : ∀ {el : Elem}, Separable el → '/' ∉ el.tag.toList := fun hel hm =>
    hel.self.tag '/' hm (by decide)
  exact (String.toList_injective (segment_unique (hslash hb) (hslash ha) (isTail_of_mem hkv')
    (isTail_of_mem hkv) hchars).1).symm

/-- **The map of a document gives the document**, up to its `revision` nodes, the text of elements
with children, the white space around the text of leaves and the relative order of siblings with
different tags.  No two leaves or attributes share a path, and two siblings of one tag and of
different content cannot be swapped unnoticed. -/
theorem flatten_exact {a b : Elem} (ha : Separable a) (hb : Separable b) :
    ((∀ path, valueAt a path = valueAt b path) ↔
      canonical (stripVolatile a) = canonical (stripVolatile b)) ∧
    ((flatten a).map (·.1)).Nodup ∧
    (Swapped (stripVolatile a) (stripVolatile b) → ∃ path, valueAt a path ≠ valueAt b path) := by
  have hentries : (∀ path, valueAt a path = valueAt b path) ↔
      ∀ kv, kv ∈ flatten a ↔ kv ∈ flatten b := by
    constructor
    · rintro h ⟨path, v⟩
      rw [← valueAt_eq_some_iff ha, ← valueAt_eq_some_iff hb, h]
    · intro h path
      apply Option.ext
      intro v
      rw [valueAt_eq_some_iff ha, valueAt_eq_some_iff hb, h]
  have hiff : (∀ path, valueAt a path = valueAt b path) ↔
      canonical (stripVolatile a) = canonical (stripVolatile b) := by
    rw [hentries]
    constructor
    · intro h
      have htag := root_tag_eq ha hb h
      refine canonical_of_walk _ _ ha.stripVolatile hb.stripVolatile ?_ fun kv => ?_
      · rw [stripVolatile_tag, stripVolatile_tag, htag]
      · have hkv := h (a.tag ++ kv.1, kv.2)
        have hin : ∀ {root : Elem}, root.tag = a.tag →
            ((a.tag ++ kv.1, kv.2) ∈ flatten root ↔ kv ∈ walk (stripVolatile root) "") := by
          intro root hroot
          rw [flatten, walk_eq_map, hroot, List.mem_map]
          constructor
          · rintro ⟨kv', hkv', he⟩
            obtain ⟨hk, hv⟩ := Prod.mk.inj he
            have hchars := congrArg String.toList hk
            rw [String.toList_append, String.toList_append] at hchars
            have hkey := String.toList_injective (List.append_cancel_left hchars)
            rwa [Prod.ext hkey hv] at hkv'
          · exact fun hkv' => ⟨kv, hkv', rfl⟩
        exact (hin rfl).symm.trans (hkv.trans (hin htag.symm))
    · intro h
      have htag : a.tag = b.tag := by
        have htags := congrArg Elem.tag h
        rwa [canonical_tag, canonical_tag, stripVolatile_tag, stripVolatile_tag] at htags
      have hwalk : ∀ kv, kv ∈ walk (stripVolatile a) "" ↔ kv ∈ walk (stripVolatile b) "" := by
        intro kv
        rw [← mem_walk_canonical, h, mem_walk_canonical]
      intro kv
      rw [flatten, flatten, walk_eq_map, walk_eq_map (stripVolatile b), List.mem_map, List.mem_map,
        htag]
      exact exists_congr fun kv' => and_congr_left fun _ => hwalk kv'
  refine ⟨hiff, flatten_paths_nodup ha, fun hswap => ?_⟩
  by_contra hsame
  push Not at hsame
  exact hswap.canonical_ne (hiff.mp hsame)

/-- Two rules in one order and in the other, with text around them and a revision. -/
theorem flatten_exact_rules :
    (∀ path, valueAt
        (.mk "opnsense" [] " " [.mk "rule" [("uuid", "1")] "pass" [], .mk "revision" [] "7" [],
          .mk "rule" [] " block " [], .mk "theme" [] "x" []]) path =
      valueAt (.mk "opnsense" [] "" [.mk "theme" [] "x" [],
          .mk "rule" [("uuid", "1")] "pass" [], .mk "rule" [] "block" []]) path) ∧
    ∃ path, valueAt (.mk "opnsense" [] "" [.mk "rule" [] "pass" [], .mk "rule" [] "block" []]) path ≠
      valueAt (.mk "opnsense" [] "" [.mk "rule" [] "block" [], .mk "rule" [] "pass" []]) path := by
  refine ⟨?_, ?_⟩
  · exact (flatten_exact (by decide +kernel) (by decide +kernel)).1.mpr rfl
  · refine (flatten_exact (by decide +kernel) (by decide +kernel)).2.2 ?_
    refine .here (l := []) (m := []) (r := []) rfl fun he => ?_
    have htext := (canonical_eq_iff.1 he).2.2.1
    revert htext
    decide +kernel

end Opngms.ConfigDiff
