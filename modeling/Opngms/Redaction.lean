/-
Opngms/Redaction.lean

The navigable tree against the flat map of the diff, and what it reveals.

`entries` lists the leaves and attributes of a document with the names on the
way to each.  The flat map of `config_diff` and the tree of `config_model` are
both images of it: the tree lacks exactly the values with a sensitive name on
the way (**`tree_agrees`**).  Two documents that differ only in such values
have the same tree, and the same tree against any catalog
(**`redaction_noninterference`**).
-/
import Mathlib.Data.List.Perm.Subperm
import Opngms.ConfigPaths

namespace Opngms

open ConfigDiff ConfigModel

/-! ### The entries of a document -/

/-- A leaf or an attribute: the names of the elements from the root to it and,
of an attribute, its own name; its path and its value. -/
structure Entry where
  names : List String
  key : String
  value : String

mutual

/-- The entries of an element under `path`, below elements with the names
`up`. -/
def entries : Elem → (path : String) → (up : List String) → List Entry
  | .mk t a x cs, path, up =>
    a.map (fun kv => ⟨up ++ [t, kv.1], path ++ "/@" ++ kv.1, kv.2⟩) ++
      (if cs.isEmpty then [⟨up ++ [t], path, strip x⟩] else entriesAll cs cs [] path (up ++ [t]))

/-- The entries of the children `todo` of `all`; `seen` are the tags met so
far. -/
def entriesAll : (todo all : List Elem) → (seen : List String) → (path : String) →
    (up : List String) → List Entry
  | [], _, _, _, _ => []
  | c :: todo, all, seen, path, up =>
    let n := (seen.filter (· == c.tag)).length + 1
    let seg := if tagTotal all c.tag = 1 then c.tag else c.tag ++ "[" ++ toString n ++ "]"
    entries c (path ++ "/" ++ seg) up ++ entriesAll todo all (c.tag :: seen) path up

end

/-- The entries of a document. -/
def documentEntries (root : Elem) : List Entry := entries (stripVolatile root) root.tag []

theorem entriesAll_eq (todo all : List Elem) (seen : List String) (path : String)
    (up : List String) :
    entriesAll todo all seen path up =
      (siblings todo all seen).flatMap fun sc => entries sc.2 (path ++ "/" ++ sc.1) up := by
  induction todo generalizing seen with
  | nil => rw [entriesAll, siblings, List.flatMap_nil]
  | cons c todo ih => rw [entriesAll, siblings, List.flatMap_cons, ih]

theorem walk_eq_entries (el : Elem) :
    ∀ path up, walk el path = (entries el path up).map fun e => (e.key, e.value) := by
  induction el using Elem.induction with
  | h t a x cs ih =>
    intro path up
    rw [walk, entries, List.map_append, List.map_map]
    congr 1
    cases cs with
    | nil => rfl
    | cons c cs =>
      show walkChildren (c :: cs) (c :: cs) [] path =
        (entriesAll (c :: cs) (c :: cs) [] path (up ++ [t])).map _
      rw [walkChildren_eq, entriesAll_eq, List.map_flatMap]
      exact List.flatMap_congr fun sc hsc => ih sc.2 (mem_of_siblings hsc) _ _

/-! ### What can be read off the tree -/

mutual

/-- The attributes of each node and the value of each childless one. -/
def collect : Node → List (String × Option String)
  | .mk _ path attributes children value _ =>
    attributes.map (fun kv => (path ++ "/@" ++ kv.1, kv.2)) ++
      (if children.isEmpty then [(path, value)] else collectAll children)

def collectAll : List Node → List (String × Option String)
  | [] => []
  | n :: ns => collect n ++ collectAll ns

end

theorem collectAll_eq (ns : List Node) : collectAll ns = ns.flatMap collect := by
  induction ns with
  | nil => rw [collectAll, List.flatMap_nil]
  | cons n ns ih => rw [collectAll, List.flatMap_cons, ih]

/-- What the tree shows of an entry: nothing, if there is a sensitive name on
the way. -/
def Entry.shown (L : Lowercase) (e : Entry) : String × Option String :=
  (e.key, if e.names.any (isSensitive L) then none else some e.value)

theorem collect_eq_entries (L : Lowercase) (el : Elem) :
    ∀ path up redacted, redacted = up.any (isSensitive L) →
      collect (node L el path redacted) = (entries el path up).map (Entry.shown L) := by
  induction el using Elem.induction with
  | h t a x cs ih =>
    intro path up redacted hred
    have hflag : (redacted || isSensitive L t) = (up ++ [t]).any (isSensitive L) := by
      rw [hred, List.any_append]
      simp
    rw [node, collect, entries, List.map_append, List.map_map, List.map_map]
    congr 1
    · refine List.map_congr_left fun kv _ => ?_
      simp [Entry.shown, hred, Bool.or_assoc]
    · cases cs with
      | nil =>
        rw [List.isEmpty_nil, if_pos rfl, if_pos rfl, if_pos rfl, hflag]
        rfl
      | cons c cs =>
        show (if (nodeChildren L (c :: cs) (c :: cs) [] path _).isEmpty then _ else
          collectAll (nodeChildren L (c :: cs) (c :: cs) [] path _)) =
            (entriesAll (c :: cs) (c :: cs) [] path (up ++ [t])).map _
        rw [if_neg (by simp [nodeChildren]), nodeChildren_eq, collectAll_eq, entriesAll_eq,
          List.flatMap_map, List.map_flatMap]
        exact List.flatMap_congr fun sc hsc => ih sc.2 (mem_of_siblings hsc) _ _ _ hflag

theorem flatten_eq_entries (root : Elem) :
    flatten root = (documentEntries root).map fun e => (e.key, e.value) :=
  walk_eq_entries (stripVolatile root) root.tag []

theorem collect_buildTree (L : Lowercase) (root : Elem) :
    collect (buildTree L root) = (documentEntries root).map (Entry.shown L) :=
  collect_eq_entries L (stripVolatile root) root.tag [] false rfl

/-! ### One path scheme -/

mutual

theorem collect_subperm : ∀ n : Node, ((collect n).map (·.1)).Subperm (paths n)
  | .mk _ path attributes children value _ => by
    rw [collect, paths, List.map_append, List.map_map]
    have hattr : (attributes.map (Prod.fst ∘ fun kv => (path ++ "/@" ++ kv.1, kv.2))) =
        attributes.map fun kv => path ++ "/@" ++ kv.1 := rfl
    rw [hattr]
    cases children with
    | nil =>
      rw [pathsAll, List.append_nil]
      exact (List.perm_append_singleton _ _).subperm
    | cons c cs =>
      have hchildren := (List.subperm_append_left
        (attributes.map fun kv => path ++ "/@" ++ kv.1)).mpr (collectAll_subperm (c :: cs))
      exact List.Subperm.cons_right path hchildren

theorem collectAll_subperm : ∀ ns : List Node, ((collectAll ns).map (·.1)).Subperm (pathsAll ns)
  | [] => by simp [collectAll]
  | n :: ns => by
    rw [collectAll, pathsAll, List.map_append]
    exact List.Subperm.append (collect_subperm n) (collectAll_subperm ns)

end

theorem flatten_keys (L : Lowercase) (root : Elem) :
    (flatten root).map (·.1) = (collect (buildTree L root)).map (·.1) := by
  rw [flatten_eq_entries, collect_buildTree, List.map_map, List.map_map]
  rfl

theorem buildTree_paths_nodup (L : Lowercase) {root : Elem} (h : Elem.WellFormed root) :
    (paths (buildTree L root)).Nodup :=
  paths_nodup L _ h.stripVolatile _ _

/-- **The flat map of a well-formed document has no key twice.** -/
theorem flatten_nodup (L : Lowercase) {root : Elem} (h : Elem.WellFormed root) :
    ((flatten root).map (·.1)).Nodup := by
  rw [flatten_keys L]
  obtain ⟨l, hperm, hsub⟩ := collect_subperm (buildTree L root)
  exact hperm.nodup_iff.mp ((buildTree_paths_nodup L h).sublist hsub)

theorem count_of_valueAt (L : Lowercase) {root : Elem} (h : Elem.WellFormed root) {path : String}
    (hp : (valueAt root path).isSome) : (paths (buildTree L root)).count path = 1 := by
  apply List.count_eq_one_of_mem (buildTree_paths_nodup L h)
  have hkey := valueAt_isSome.mp hp
  rw [flatten_keys L] at hkey
  exact List.Subperm.subset (collect_subperm _) hkey

theorem structuralDiff_present {a b : Elem} {path : String} {kind : DiffKind}
    (h : (path, kind) ∈ structuralDiff a b) :
    (kind ≠ .added → (valueAt a path).isSome) ∧ (kind ≠ .removed → (valueAt b path).isSome) := by
  obtain ⟨p, hp, hrow⟩ := List.mem_filterMap.mp h
  have hkey : p ∈ (flatten a).map (·.1) ∨ p ∈ (flatten b).map (·.1) := by
    rw [← List.mem_append, ← List.map_append]
    exact List.mem_dedup.mp ((List.mem_insertionSort _).mp hp)
  rw [← valueAt_isSome, ← valueAt_isSome] at hkey
  cases ha : valueAt a p with
  | none =>
    cases hb : valueAt b p with
    | none => simp [ha, hb] at hkey
    | some y =>
      rw [ha, hb] at hrow
      obtain ⟨rfl, rfl⟩ := Prod.mk.inj (Option.some.inj hrow)
      simp [hb]
  | some x =>
    cases hb : valueAt b p with
    | none =>
      rw [ha, hb] at hrow
      obtain ⟨rfl, rfl⟩ := Prod.mk.inj (Option.some.inj hrow)
      simp [ha]
    | some y =>
      rw [ha, hb] at hrow
      have hp : p = path := by
        by_cases hxy : x = y
        · simp [hxy] at hrow
        · simp only [ne_eq, hxy, not_false_eq_true, if_true, Option.some.injEq,
            Prod.mk.injEq] at hrow
          exact hrow.1
      subst hp
      simp [ha, hb]

/-- **The tree and the flat map have one path scheme.**  What is collected from
the tree has the keys of the flat map, with the same value unless there is a
sensitive name on the way; a path the diff reports as present in a document
names one node or attribute of its tree. -/
theorem tree_agrees (L : Lowercase) (a b : Elem) (ha : Elem.WellFormed a)
    (hb : Elem.WellFormed b) :
    (collect (buildTree L a)).map (·.1) = (flatten a).map (·.1) ∧
      flatten a = (documentEntries a).map (fun e => (e.key, e.value)) ∧
      collect (buildTree L a) = (documentEntries a).map (fun e =>
        (e.key, if e.names.any (isSensitive L) then none else some e.value)) ∧
      ∀ path kind, (path, kind) ∈ structuralDiff a b →
        (kind ≠ .added → (paths (buildTree L a)).count path = 1) ∧
          (kind ≠ .removed → (paths (buildTree L b)).count path = 1) := by
  refine ⟨(flatten_keys L a).symm, flatten_eq_entries a, collect_buildTree L a, ?_⟩
  intro path kind hrow
  obtain ⟨hina, hinb⟩ := structuralDiff_present hrow
  exact ⟨fun hk => count_of_valueAt L ha (hina hk), fun hk => count_of_valueAt L hb (hinb hk)⟩

/-- Two documents with a password, of which the diff reports one leaf. -/
theorem login_tree_agrees :
    let a : Elem := .mk "r" [] "" [.mk "login" [("key", "1")] "" [.mk "password" [] "p" []],
      .mk "host" [] "x" []]
    let b : Elem := .mk "r" [] "" [.mk "login" [("key", "1")] "" [.mk "password" [] "p" []],
      .mk "host" [] "y" []]
    ("r/host", DiffKind.modified) ∈ structuralDiff a b ∧
      (paths (buildTree asciiLower a)).count "r/host" = 1 := by
  intro a b
  have hrow : ("r/host", DiffKind.modified) ∈ structuralDiff a b := by decide +kernel
  have hone := (tree_agrees asciiLower a b (by decide +kernel) (by decide +kernel)).2.2.2
    "r/host" .modified hrow
  exact ⟨hrow, hone.1 (by decide)⟩

/-! ### Noninterference -/

mutual

/-- The elements have the same tags and attribute names throughout, and differ
only in what is redacted: the texts and attribute values of elements with a
sensitive tag on themselves or above, and the values of attributes with a
sensitive name. -/
def Alike (L : Lowercase) : (redacted : Bool) → Elem → Elem → Prop
  | redacted, .mk t a x cs, .mk t' a' x' cs' =>
    t = t' ∧
      List.Forall₂ (fun kv kv' => kv.1 = kv'.1 ∧
        (kv.2 = kv'.2 ∨ (redacted || isSensitive L t || isSensitive L kv.1) = true)) a a' ∧
      (x = x' ∨ (redacted || isSensitive L t) = true) ∧
      AlikeAll L (redacted || isSensitive L t) cs cs'

def AlikeAll (L : Lowercase) : (redacted : Bool) → List Elem → List Elem → Prop
  | _, [], [] => True
  | redacted, c :: cs, c' :: cs' => Alike L redacted c c' ∧ AlikeAll L redacted cs cs'
  | _, _, _ => False

end

theorem Alike.tag {L : Lowercase} {redacted : Bool} {a b : Elem} (h : Alike L redacted a b) :
    a.tag = b.tag := by
  obtain ⟨t, _, _, _⟩ := a
  obtain ⟨t', _, _, _⟩ := b
  rw [Alike] at h
  exact h.1

theorem alikeAll_iff {L : Lowercase} {redacted : Bool} {cs cs' : List Elem} :
    AlikeAll L redacted cs cs' ↔ List.Forall₂ (Alike L redacted) cs cs' := by
  induction cs generalizing cs' with
  | nil => cases cs' <;> simp [AlikeAll]
  | cons c cs ih =>
    cases cs' with
    | nil => simp [AlikeAll]
    | cons c' cs' => rw [AlikeAll, List.forall₂_cons, ih]

theorem tagTotal_congr {R : Elem → Elem → Prop} (hR : ∀ c c', R c c' → c.tag = c'.tag)
    {cs cs' : List Elem} (h : List.Forall₂ R cs cs') (t : String) :
    tagTotal cs t = tagTotal cs' t := by
  induction h with
  | nil => rfl
  | @cons c c' cs cs' hc _ ih =>
    unfold tagTotal at ih ⊢
    rw [List.filter_cons, List.filter_cons, hR c c' hc]
    split
    · rw [List.length_cons, List.length_cons, ih]
    · exact ih

theorem siblings_congr {R : Elem → Elem → Prop} (hR : ∀ c c', R c c' → c.tag = c'.tag)
    {todo todo' all all' : List Elem} (h : List.Forall₂ R todo todo')
    (hall : ∀ t, tagTotal all t = tagTotal all' t) (seen : List String) :
    List.Forall₂ (fun sc sc' => sc.1 = sc'.1 ∧ R sc.2 sc'.2)
      (siblings todo all seen) (siblings todo' all' seen) := by
  induction h generalizing seen with
  | nil => exact .nil
  | @cons c c' todo todo' hc _ ih =>
    rw [siblings, siblings, hR c c' hc, hall]
    exact .cons ⟨rfl, hc⟩ (ih _)

theorem map_eq_of_forall₂ {α β : Type*} {R : α → α → Prop} {f : α → β} {l l' : List α}
    (hf : ∀ c c', R c c' → f c = f c') (h : List.Forall₂ R l l') : l.map f = l'.map f := by
  induction h with
  | nil => rfl
  | @cons c c' l l' hc _ ih => rw [List.map_cons, List.map_cons, hf c c' hc, ih]

theorem node_alike (L : Lowercase) (a : Elem) :
    ∀ b path redacted, Alike L redacted a b → node L a path redacted = node L b path redacted := by
  induction a using Elem.induction with
  | h t a x cs ih =>
    rintro ⟨t', a', x', cs'⟩ path redacted h
    rw [Alike] at h
    obtain ⟨rfl, hattr, htext, hchildren⟩ := h
    have hall := alikeAll_iff.mp hchildren
    have hattrs : (a.map fun kv => (kv.1,
        if (redacted || isSensitive L t || isSensitive L kv.1) = true then none else some kv.2)) =
        a'.map fun kv => (kv.1,
          if (redacted || isSensitive L t || isSensitive L kv.1) = true then none else some kv.2) := by
      apply map_eq_of_forall₂ ?_ hattr
      rintro ⟨k, v⟩ ⟨k', v'⟩ ⟨hk, hv⟩
      simp only at hk hv ⊢
      subst hk
      rcases hv with rfl | hv
      · rfl
      · rw [if_pos hv, if_pos hv]
    have hempty : cs.isEmpty = cs'.isEmpty := by
      cases hall <;> rfl
    have hvalue : (if (redacted || isSensitive L t) = true then none else some (strip x)) =
        if (redacted || isSensitive L t) = true then none else some (strip x') := by
      rcases htext with rfl | hred
      · rfl
      · rw [if_pos hred, if_pos hred]
    have hnodes : (siblings cs cs []).map (fun sc =>
          node L sc.2 (path ++ "/" ++ sc.1) (redacted || isSensitive L t)) =
        (siblings cs' cs' []).map fun sc =>
          node L sc.2 (path ++ "/" ++ sc.1) (redacted || isSensitive L t) := by
      apply map_eq_of_forall₂ ?_ (siblings_congr (fun _ _ hc => hc.2.tag)
        (List.forall₂_and_left cs cs' |>.mpr ⟨fun _ hmem => hmem, hall⟩)
        (tagTotal_congr (fun _ _ hc => hc.tag) hall) [])
      rintro ⟨seg, c⟩ ⟨seg', c'⟩ ⟨hseg, hmem, hc⟩
      simp only at hseg hmem hc ⊢
      rw [hseg]
      exact ih c hmem c' _ _ hc
    rw [node, node, node_children, node_children, hattrs, hnodes, hempty, hvalue]

theorem Alike.stripVolatile {L : Lowercase} {redacted : Bool} {a b : Elem}
    (h : Alike L redacted a b) : Alike L redacted (stripVolatile a) (stripVolatile b) := by
  obtain ⟨t, a, x, cs⟩ := a
  obtain ⟨t', a', x', cs'⟩ := b
  rw [Alike] at h
  rw [ConfigDiff.stripVolatile, ConfigDiff.stripVolatile, Alike]
  refine ⟨h.1, h.2.1, h.2.2.1, alikeAll_iff.mpr ?_⟩
  refine List.rel_filter (fun {c c'} hc => ?_) (alikeAll_iff.mp h.2.2.2)
  show _ = true ↔ _ = true
  simp only [hc.tag]

/-- **Redaction is noninterfering**: documents that differ only in redacted
values have the same tree, and the same tree against any catalog. -/
theorem redaction_noninterference (L : Lowercase) (a b : Elem) (h : Alike L false a b) :
    buildTree L a = buildTree L b ∧
      ∀ catalog, ConfigMap.annotateWithCatalog L (buildTree L a) catalog =
        ConfigMap.annotateWithCatalog L (buildTree L b) catalog := by
  have htree : buildTree L a = buildTree L b := by
    rw [buildTree, buildTree, h.tag]
    exact node_alike L _ _ _ _ h.stripVolatile
  exact ⟨htree, fun catalog => by rw [htree]⟩

/-- Two documents that differ in a password and in the attribute beside it. -/
theorem password_noninterference :
    buildTree asciiLower (.mk "r" [] "" [.mk "password" [("a", "1")] "p" [], .mk "host" [] "x" []]) =
      buildTree asciiLower
        (.mk "r" [] "" [.mk "password" [("a", "2")] "q" [], .mk "host" [] "x" []]) := by
  refine (redaction_noninterference asciiLower _ _ ?_).1
  have hpw : isSensitive asciiLower "password" = true := by decide +kernel
  simp [Alike, AlikeAll, hpw]

end Opngms
