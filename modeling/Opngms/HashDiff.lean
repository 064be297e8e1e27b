/-
Opngms/HashDiff.lean

The canonical hash against the structural diff.

`canonical_hash` joins the lines `path=value` with line breaks, and a value may
hold line breaks of its own: a value of one document that goes on like the next
line of the other makes the two texts the same (`forged_hash`).  Where no value
imitates a line in this way, the hash and the diff agree
(**`hash_agrees_diff`**).

The text is read from the front: a key ends at its first equals sign outside
braces, so the first keys agree; if the values do not, one goes on where the
other ends, with a line of the other document.
-/
import Opngms.Redaction

namespace Opngms

open ConfigDiff ConfigModel

/-! ### Lines -/

/-- A key of a line: a scan for the equals sign passes over it, and it has no
line break. -/
def LineKey (k : String) : Prop := Passes '=' k.toList ∧ '\n' ∉ k.toList

theorem LineKey.append {k k' : String} (h : LineKey k) (h' : LineKey k') : LineKey (k ++ k') := by
  constructor
  · rw [String.toList_append]
    exact h.1.append h'.1
  · rw [String.toList_append, List.mem_append]
    rintro (hk | hk)
    · exact h.2 hk
    · exact h'.2 hk

theorem PlainName.lineKey {s : String} (h : PlainName s) : LineKey s :=
  ⟨h.passes (by decide), h.2.2⟩

/-- The characters of the lines `path=value`, joined with line breaks. -/
def lineChars : List (String × String) → List Char
  | [] => []
  | [(k, v)] => k.toList ++ '=' :: v.toList
  | (k, v) :: l :: ls => k.toList ++ '=' :: (v.toList ++ '\n' :: lineChars (l :: ls))

def restChars : List (String × String) → List Char
  | [] => []
  | l :: ls => '\n' :: lineChars (l :: ls)

theorem lineChars_cons (k v : String) (ls : List (String × String)) :
    lineChars ((k, v) :: ls) = k.toList ++ '=' :: (v.toList ++ restChars ls) := by
  cases ls with
  | nil => rw [lineChars, restChars, List.append_nil]
  | cons l ls => rw [lineChars, restChars]

theorem intercalate_toList (ls : List (String × String)) :
    ("\n".intercalate (ls.map fun pv => pv.1 ++ "=" ++ pv.2)).toList = lineChars ls := by
  induction ls with
  | nil => rw [List.map_nil, String.intercalate_nil, lineChars]; rfl
  | cons l ls ih =>
    obtain ⟨k, v⟩ := l
    cases ls with
    | nil => simp [lineChars, String.toList_append]
    | cons l ls =>
      rw [List.map_cons, String.intercalate_cons_of_ne_nil (by simp), String.toList_append, ih,
        lineChars]
      simp [String.toList_append]

/-- The value `v` goes on, where `v'` ends, like a line with the key `k`. -/
def GoesOn (v v' k : String) : Prop := (v' ++ "\n" ++ k ++ "=").toList <+: v.toList

instance (v v' k : String) : Decidable (GoesOn v v' k) :=
  inferInstanceAs (Decidable (_ <+: _))

/-- Under some key, a value of `ls` goes on where the value of `ls'` ends, like
a line of `ls'`. -/
def Imitates (ls ls' : List (String × String)) : Prop :=
  ∃ kv ∈ ls, ∃ kv' ∈ ls', kv.1 = kv'.1 ∧ ∃ next ∈ ls', GoesOn kv.2 kv'.2 next.1

instance (ls ls' : List (String × String)) : Decidable (Imitates ls ls') :=
  inferInstanceAs (Decidable (∃ kv ∈ ls, ∃ kv' ∈ ls', kv.1 = kv'.1 ∧
    ∃ next ∈ ls', GoesOn kv.2 kv'.2 next.1))

theorem goesOn_of_rest {v v' : String} {x : List Char} {ls ls' : List (String × String)}
    (hkeys : ∀ kv ∈ ls', LineKey kv.1) (hx : x ≠ []) (hv : v.toList = v'.toList ++ x)
    (hrest : restChars ls' = x ++ restChars ls) : ∃ next ∈ ls', GoesOn v v' next.1 := by
  cases ls' with
  | nil =>
    rw [restChars] at hrest
    exact absurd (List.append_eq_nil_iff.mp hrest.symm).1 hx
  | cons l ls' =>
    obtain ⟨k, w⟩ := l
    refine ⟨(k, w), List.mem_cons_self, ?_⟩
    have hkey : '\n' ∉ k.toList := (hkeys (k, w) List.mem_cons_self).2
    rw [restChars, lineChars_cons] at hrest
    -- `x` begins with a line break; it has the whole key and the equals sign
    -- behind it, because what follows `x` begins with a line break as well
    have hlong : '\n' :: (k.toList ++ ['=']) <+: x := by
      have hsplit : ('\n' :: (k.toList ++ ['='])) ++ (w.toList ++ restChars ls') =
          x ++ restChars ls := by
        rw [← hrest]
        simp
      rcases List.append_eq_append_iff.mp hsplit with ⟨y, hy, -⟩ | ⟨y, hy, hls⟩
      · exact ⟨y, hy.symm⟩
      · cases y with
        | nil => exact ⟨[], by rw [List.append_nil, hy, List.append_nil]⟩
        | cons c y =>
          exfalso
          have hc : c = '\n' := by
            cases ls with
            | nil => rw [restChars] at hls; exact absurd hls (by simp)
            | cons l ls =>
              rw [restChars] at hls
              exact (List.cons.inj hls).1.symm
          cases x with
          | nil => exact hx rfl
          | cons d x =>
            have htail : k.toList ++ ['='] = x ++ c :: y := (List.cons.inj hy).2
            have hmem : c ∈ k.toList ++ ['='] := by
              rw [htail]
              simp
            rw [hc, List.mem_append] at hmem
            rcases hmem with hmem | hmem
            · exact hkey hmem
            · exact absurd hmem (by decide)
    obtain ⟨y, hy⟩ := hlong
    exact ⟨y, by rw [hv, ← hy]; simp [String.toList_append]⟩

theorem lineChars_cons_ne_nil (l : String × String) (ls : List (String × String)) :
    lineChars (l :: ls) ≠ [] := by
  intro h
  rw [lineChars_cons] at h
  simp at h

theorem lineChars_of_rest {ls ls' : List (String × String)} (h : restChars ls = restChars ls') :
    lineChars ls = lineChars ls' := by
  cases ls with
  | nil =>
    cases ls' with
    | nil => rfl
    | cons l' ls' => exact absurd h (by simp [restChars])
  | cons l ls =>
    cases ls' with
    | nil => exact absurd h (by simp [restChars])
    | cons l' ls' => exact (List.cons.inj h).2

/-- **Without imitation, the joined text determines the lines.** -/
theorem lines_eq_of_chars {ls ls' all all' : List (String × String)}
    (hkeys : ∀ kv ∈ all, LineKey kv.1) (hkeys' : ∀ kv ∈ all', LineKey kv.1)
    (hno : ¬ Imitates all all') (hno' : ¬ Imitates all' all) (hsub : ls ⊆ all) (hsub' : ls' ⊆ all')
    (heq : lineChars ls = lineChars ls') : ls = ls' := by
  induction ls generalizing ls' with
  | nil =>
    cases ls' with
    | nil => rfl
    | cons l' ls' => exact absurd heq.symm (lineChars_cons_ne_nil _ _)
  | cons l ls ih =>
    cases ls' with
    | nil => exact absurd heq (lineChars_cons_ne_nil _ _)
    | cons l' ls' =>
      obtain ⟨k, v⟩ := l
      obtain ⟨k', v'⟩ := l'
      obtain ⟨hl, hls⟩ := List.cons_subset.mp hsub
      obtain ⟨hl', hls'⟩ := List.cons_subset.mp hsub'
      rw [lineChars_cons, lineChars_cons] at heq
      have hk : k = k' := String.toList_injective
        ((hkeys _ hl).1.unique (hkeys' _ hl').1 (scan_stop _ _) (scan_stop _ _) heq)
      subst hk
      have hvalues : v.toList ++ restChars ls = v'.toList ++ restChars ls' :=
        (List.cons.inj (List.append_cancel_left heq)).2
      -- the longer value would imitate a line of the other list
      have hv : v.toList = v'.toList := by
        rcases List.append_eq_append_iff.mp hvalues with ⟨x, hx, hrest⟩ | ⟨x, hx, hrest⟩
        · by_cases hnil : x = []
          · rw [hx, hnil, List.append_nil]
          · obtain ⟨next, hnext, hon⟩ :=
              goesOn_of_rest (fun kv h => hkeys kv (hls h)) hnil hx hrest
            exact absurd ⟨_, hl', _, hl, rfl, next, hls hnext, hon⟩ hno'
        · by_cases hnil : x = []
          · rw [hx, hnil, List.append_nil]
          · obtain ⟨next, hnext, hon⟩ :=
              goesOn_of_rest (fun kv h => hkeys' kv (hls' h)) hnil hx hrest
            exact absurd ⟨_, hl, _, hl', rfl, next, hls' hnext, hon⟩ hno
      rw [hv] at hvalues
      have hrest := List.append_cancel_left hvalues
      rw [String.toList_injective hv, ih hls hls' (lineChars_of_rest hrest)]

/-! ### The lines of a document -/

theorem lineKey_index (n : Nat) : LineKey ("[" ++ toString n ++ "]") := by
  refine ⟨passes_index (by decide) n, ?_⟩
  intro hm
  have hm' : '\n' ∈ Nat.toDigits 10 n := by
    simpa [String.toList_append, Nat.toString_eq_ofList_toDigits] using hm
  exact absurd (Nat.isDigit_of_mem_toDigits (by decide) (by decide) hm') (by decide)

theorem siblings_lineKey {todo all : List Elem} {seen : List String} {sc : String × Elem}
    (h : sc ∈ siblings todo all seen) (hp : PlainName sc.2.tag) : LineKey sc.1 := by
  rcases siblings_seg h with ⟨-, hseg⟩ | ⟨-, n, -, hseg⟩
  · rw [hseg]
    exact hp.lineKey
  · have hkey := hp.lineKey.append (lineKey_index n)
    rwa [← String.append_assoc, ← String.append_assoc, ← hseg] at hkey

theorem walk_lineKey (el : Elem) :
    Elem.WellFormed el → ∀ path, LineKey path → ∀ kv ∈ walk el path, LineKey kv.1 := by
  induction el using Elem.induction with
  | h t a x cs ih =>
    intro hwf path hpath kv hkv
    have hsep : ∀ s ∈ ["/", "/@"], LineKey s := by
      intro s hs
      rcases List.mem_pair.mp hs with rfl | rfl
      · exact ⟨Passes.of_forall (by simp), by simp⟩
      · exact ⟨Passes.of_forall (by simp), by simp⟩
    rw [walk] at hkv
    rcases List.mem_append.mp hkv with hkv | hkv
    · obtain ⟨at', hat, rfl⟩ := List.mem_map.mp hkv
      exact (hpath.append (hsep _ (by decide))).append (hwf.self.attrib at' hat).lineKey
    · cases cs with
      | nil =>
        rw [List.isEmpty_nil, if_pos rfl, List.mem_singleton] at hkv
        rw [hkv]
        exact hpath
      | cons c cs =>
        rw [if_neg (by simp), walkChildren_eq] at hkv
        obtain ⟨sc, hsc, hkv⟩ := List.mem_flatMap.mp hkv
        have hchild := hwf.child (mem_of_siblings hsc)
        have hseg := siblings_lineKey hsc hchild.self.tag
        exact ih sc.2 (mem_of_siblings hsc) hchild _
          ((hpath.append (hsep _ (by decide))).append hseg) kv hkv

theorem flatten_lineKey {root : Elem} (h : Elem.WellFormed root) :
    ∀ kv ∈ flatten root, LineKey kv.1 :=
  walk_lineKey _ h.stripVolatile _ h.self.tag.lineKey

/-- The lines of the text, in their order. -/
def sortedLines (root : Elem) : List (String × String) :=
  (flatten root).insertionSort fun a b => a.1 ≤ b.1

theorem blob_toList (root : Elem) : (blob root).toList = lineChars (sortedLines root) :=
  intercalate_toList _

theorem sortedLines_perm (root : Elem) : (sortedLines root).Perm (flatten root) :=
  List.perm_insertionSort _ _

theorem sortedLines_eq {a b : Elem} (ha : Elem.WellFormed a)
    (h : (flatten a).Perm (flatten b)) : sortedLines a = sortedLines b := by
  have hperm : (sortedLines a).Perm (sortedLines b) :=
    (sortedLines_perm a).trans (h.trans (sortedLines_perm b).symm)
  refine hperm.eq_of_pairwise ?_ (List.pairwise_insertionSort _ _)
    (List.pairwise_insertionSort _ _)
  intro kv kv' hkv hkv' hle hge
  have hin := (sortedLines_perm a).mem_iff.mp hkv
  have hin' := (sortedLines_perm a).mem_iff.mp (hperm.mem_iff.mpr hkv')
  exact List.inj_on_of_nodup_map (flatten_nodup asciiLower ha) hin hin' (String.le_antisymm hle hge)

theorem valueAt_eq_some {root : Elem} (h : Elem.WellFormed root) {path v : String} :
    valueAt root path = some v ↔ (path, v) ∈ flatten root :=
  valueAt_eq_some_of_nodup (flatten_nodup asciiLower h)

theorem structuralDiff_eq_nil {a b : Elem} :
    structuralDiff a b = [] ↔ ∀ path, valueAt a path = valueAt b path := by
  rw [structuralDiff, List.filterMap_eq_nil_iff]
  constructor
  · intro h path
    by_cases hin : path ∈ (flatten a ++ flatten b).map (·.1)
    · have hrow := h path ((List.mem_insertionSort _).mpr (List.mem_dedup.mpr hin))
      cases ha : valueAt a path with
      | none =>
        cases hb : valueAt b path with
        | none => rfl
        | some y => simp [ha, hb] at hrow
      | some x =>
        cases hb : valueAt b path with
        | none => simp [ha, hb] at hrow
        | some y => simpa [ha, hb] using hrow
    · rw [List.map_append, List.mem_append, ← valueAt_isSome, ← valueAt_isSome] at hin
      simp only [not_or, Option.not_isSome_iff_eq_none] at hin
      rw [hin.1, hin.2]
  · intro h path hin
    have hkey : path ∈ (flatten a ++ flatten b).map (·.1) :=
      List.mem_dedup.mp ((List.mem_insertionSort _).mp hin)
    rw [List.map_append, List.mem_append, ← valueAt_isSome, ← valueAt_isSome, h path, or_self] at hkey
    obtain ⟨y, hy⟩ := Option.isSome_iff_exists.mp hkey
    rw [h path, hy]
    simp

theorem structuralDiff_nil_iff_perm {a b : Elem} (ha : Elem.WellFormed a) (hb : Elem.WellFormed b) :
    structuralDiff a b = [] ↔ (flatten a).Perm (flatten b) := by
  have hnodup : ∀ {root : Elem}, Elem.WellFormed root → (flatten root).Nodup := fun h =>
    (flatten_nodup asciiLower h).of_map _
  rw [structuralDiff_eq_nil, List.perm_ext_iff_of_nodup (hnodup ha) (hnodup hb)]
  constructor
  · rintro h ⟨path, v⟩
    rw [← valueAt_eq_some ha, ← valueAt_eq_some hb, h path]
  · intro h path
    apply Option.ext
    intro v
    rw [valueAt_eq_some ha, valueAt_eq_some hb, h]

/-- **The hash and the diff agree on documents that do not imitate each
other's lines.** -/
theorem hash_agrees_diff (H : Hashing) (xa xb : String) (a b : Elem)
    (hxa : H.parseXml xa = some a) (hxb : H.parseXml xb = some b)
    (ha : Elem.WellFormed a) (hb : Elem.WellFormed b)
    (hsha : ∀ r r' : Elem, H.sha256 (blob r) = H.sha256 (blob r') → blob r = blob r')
    (hab : ¬ Imitates (flatten a) (flatten b)) (hba : ¬ Imitates (flatten b) (flatten a)) :
    H.canonicalHash xa = H.canonicalHash xb ↔ structuralDiff a b = [] := by
  rw [Hashing.canonicalHash, Hashing.canonicalHash, hxa, hxb, Option.map_some, Option.map_some,
    Option.some.injEq, structuralDiff_nil_iff_perm ha hb]
  constructor
  · intro hhash
    have hchars := congrArg String.toList (hsha a b hhash)
    rw [blob_toList, blob_toList] at hchars
    have hlines := lines_eq_of_chars (flatten_lineKey ha) (flatten_lineKey hb) hab hba
      (sortedLines_perm a).subset (sortedLines_perm b).subset hchars
    exact (sortedLines_perm a).symm.trans (hlines ▸ sortedLines_perm b)
  · intro hperm
    have hblob : blob a = blob b := by
      apply String.toList_injective
      rw [blob_toList, blob_toList, sortedLines_eq ha hperm]
    rw [hblob]

/-- The alias contents of one document go on like a leaf of the other. -/
def forgedDocuments : Elem × Elem :=
  (.mk "r" [] "" [.mk "a" [] "1\nr/b=2" []],
    .mk "r" [] "" [.mk "a" [] "1" [], .mk "b" [] "2" []])

/-- A parser that knows two documents, and a digest without collisions. -/
def twoDocuments (a b : Elem) : Hashing where
  parseXml s := if s = "a" then some a else if s = "b" then some b else none
  sha256 := id

/-- Documents that imitate no line: one leaf differs. -/
theorem plain_hash_agrees :
    (twoDocuments (.mk "r" [] "" [.mk "a" [] "1\n2" []])
        (.mk "r" [] "" [.mk "a" [] "1" [], .mk "b" [] "2" []])).canonicalHash "a" ≠
      (twoDocuments (.mk "r" [] "" [.mk "a" [] "1\n2" []])
        (.mk "r" [] "" [.mk "a" [] "1" [], .mk "b" [] "2" []])).canonicalHash "b" := by
  rw [ne_eq, hash_agrees_diff _ _ _ _ _ rfl rfl (by decide +kernel) (by decide +kernel)
    (fun _ _ h => h) (by decide +kernel) (by decide +kernel)]
  decide +kernel

/-- The hash does not tell the two documents apart, and the diff does. -/
theorem forged_hash :
    Elem.WellFormed forgedDocuments.1 ∧ Elem.WellFormed forgedDocuments.2 ∧
      (twoDocuments forgedDocuments.1 forgedDocuments.2).canonicalHash "a" =
        (twoDocuments forgedDocuments.1 forgedDocuments.2).canonicalHash "b" ∧
      structuralDiff forgedDocuments.1 forgedDocuments.2 ≠ [] := by
  refine ⟨by decide +kernel, by decide +kernel, by decide +kernel, by decide +kernel⟩

end Opngms
