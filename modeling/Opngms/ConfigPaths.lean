/-
Opngms/ConfigPaths.lean

The paths under which `config_diff` and `config_model` address the elements and
attributes of a document.

Both modules number repeated siblings in a loop of their own; `siblings` is what
the two loops compute.  The names of a document hold none of the characters
that paths are built with, except in the braces of a namespace; so the segments
of siblings differ (`siblings_nodup`), and so do the paths of all nodes and
attributes (**`paths_nodup`**).
-/
import Opngms.ConfigModel

namespace Opngms

open ConfigDiff ConfigModel

/-! ### Scanning -/

/-- The text before the first `stop` outside braces. -/
def scan (stop : Char) : (inside : Bool) → List Char → List Char
  | _, [] => []
  | false, c :: cs => if c = stop then [] else c :: scan stop (c == '{') cs
  | true, c :: cs => c :: scan stop (c != '}') cs

theorem scan_stop (stop : Char) (cs : List Char) : scan stop false (stop :: cs) = [] := if_pos rfl

/-- A scan passes over the text, and is outside braces behind it. -/
def Passes (stop : Char) (w : List Char) : Prop :=
  ∀ t, scan stop false (w ++ t) = w ++ scan stop false t

theorem Passes.nil (stop : Char) : Passes stop [] := fun _ => rfl

theorem Passes.append {stop : Char} {w w' : List Char} (h : Passes stop w) (h' : Passes stop w') :
    Passes stop (w ++ w') := by
  intro t
  rw [List.append_assoc, h, h', List.append_assoc]

theorem Passes.of_forall {stop : Char} {w : List Char} (h : ∀ c ∈ w, c ≠ stop ∧ c ≠ '{') :
    Passes stop w := by
  induction w with
  | nil => exact Passes.nil stop
  | cons c w ih =>
    intro t
    obtain ⟨hc, hw⟩ := List.forall_mem_cons.mp h
    have hopen : (c == '{') = false := beq_false_of_ne hc.2
    rw [List.cons_append, scan, if_neg hc.1, hopen, ih hw, List.cons_append]

theorem Passes.braces {stop : Char} (hstop : stop ≠ '{') {uri : List Char} (h : '}' ∉ uri) :
    Passes stop ('{' :: (uri ++ ['}'])) := by
  intro t
  have hinside : ∀ uri : List Char, '}' ∉ uri →
      scan stop true (uri ++ '}' :: t) = uri ++ '}' :: scan stop false t := by
    intro uri h
    induction uri with
    | nil => rfl
    | cons c uri ih =>
      have hc : (c != '}') = true := bne_iff_ne.mpr fun he => h (he ▸ List.mem_cons_self)
      rw [List.cons_append, scan, hc, ih fun hm => h (List.mem_cons_of_mem _ hm), List.cons_append]
  have hopen : scan stop false ('{' :: (uri ++ '}' :: t)) =
      '{' :: scan stop true (uri ++ '}' :: t) := if_neg hstop.symm
  rw [List.cons_append, List.append_assoc, List.singleton_append, hopen, hinside uri h,
    List.cons_append, List.append_assoc, List.singleton_append]

theorem Passes.unique {stop : Char} {w w' t t' : List Char} (h : Passes stop w)
    (h' : Passes stop w') (ht : scan stop false t = []) (ht' : scan stop false t' = [])
    (heq : w ++ t = w' ++ t') : w = w' := by
  have hscan := congrArg (scan stop false) heq
  rwa [h, h', ht, ht', List.append_nil, List.append_nil] at hscan

/-! ### Names -/

/-- The local part of a name: the parser writes the names of a namespace as
`{uri}local`. -/
def localPart (s : String) : List Char :=
  match s.toList with
  | '{' :: rest => (rest.dropWhile (· != '}')).tail
  | name => name

/-- A name as XML has it: the local part is not empty and has none of the
characters that paths are built with, and no name holds a line break. -/
def PlainName (s : String) : Prop :=
  localPart s ≠ [] ∧ (∀ c ∈ localPart s, c ∉ ['/', '[', ']', '@', '=', '{', '}']) ∧
    '\n' ∉ s.toList

instance (s : String) : Decidable (PlainName s) :=
  have : Decidable (∀ c ∈ localPart s, c ∉ ['/', '[', ']', '@', '=', '{', '}']) :=
    List.decidableBAll _ _
  inferInstanceAs (Decidable (_ ∧ _ ∧ _))

theorem PlainName.shape {s : String} (h : PlainName s) :
    s.toList = localPart s ∨ ∃ uri, '}' ∉ uri ∧ s.toList = '{' :: (uri ++ ['}']) ++ localPart s := by
  unfold PlainName at h
  have hdef : localPart s = match s.toList with
    | '{' :: rest => (rest.dropWhile (· != '}')).tail
    | name => name := rfl
  split at hdef
  case h_1 rest hrest =>
    refine .inr ⟨rest.takeWhile (· != '}'), fun hm => ?_, ?_⟩
    · have hne := List.all_takeWhile (p := (· != '}')) (l := rest)
      rw [List.all_eq_true] at hne
      exact absurd (hne _ hm) (by simp)
    · cases hd : rest.dropWhile (· != '}') with
      | nil => rw [hdef, hd] at h; exact absurd rfl h.1
      | cons c tail =>
        have hc : c = '}' := by
          have := List.head?_dropWhile_not (· != '}') rest
          rw [hd] at this
          simpa using this
        have hsplit := List.takeWhile_append_dropWhile (p := (· != '}')) (l := rest)
        rw [hdef, hd, List.tail_cons, hrest]
        rw [hd, hc] at hsplit
        simp [hsplit]
  case h_2 => exact .inl hdef.symm

theorem PlainName.passes {s : String} (h : PlainName s) {stop : Char} (hs : stop ∈ ['/', '=']) :
    Passes stop s.toList := by
  have hlocal : Passes stop (localPart s) := by
    apply Passes.of_forall
    intro c hc
    have hnot := h.2.1 c hc
    constructor
    · rintro rfl
      have hsub : ∀ c ∈ ['/', '='], c ∈ ['/', '[', ']', '@', '=', '{', '}'] := by simp
      exact hnot (hsub c hs)
    · rintro rfl
      exact hnot (by decide)
  have hopen : ∀ c ∈ ['/', '='], c ≠ '{' := by simp
  rcases h.shape with hshape | ⟨uri, huri, hshape⟩
  · rw [hshape]
    exact hlocal
  · rw [hshape]
    exact (Passes.braces (hopen stop hs) huri).append hlocal

theorem PlainName.ne_indexed {s t : String} (h : PlainName s) : s ≠ t ++ "]" := by
  intro heq
  have hlast : s.toList.getLast? = some ']' := by
    rw [heq, String.toList_append]
    exact List.getLast?_concat
  have hlocal : s.toList.getLast? = (localPart s).getLast? := by
    rcases h.shape with hshape | ⟨uri, -, hshape⟩
    · rw [hshape]
    · rw [hshape, List.getLast?_append_of_ne_nil _ h.1]
  rw [hlocal] at hlast
  exact h.2.1 _ (List.mem_of_getLast? hlast) (by decide)

theorem PlainName.head {s : String} (h : PlainName s) : ∃ c cs, s.toList = c :: cs ∧ c ≠ '@' := by
  rcases h.shape with hshape | ⟨uri, -, hshape⟩
  · cases hl : localPart s with
    | nil => exact absurd hl h.1
    | cons c cs =>
      refine ⟨c, cs, hshape.trans hl, ?_⟩
      rintro rfl
      exact h.2.1 '@' (hl ▸ List.mem_cons_self) (by decide)
  · exact ⟨'{', _, hshape, by decide⟩

/-- The element has plain names, and no attribute twice. -/
structure Elem.NamedWell (el : Elem) : Prop where
  tag : PlainName el.tag
  attrib : ∀ kv ∈ el.attrib, PlainName kv.1
  nodup : (el.attrib.map (·.1)).Nodup

instance (el : Elem) : Decidable (Elem.NamedWell el) :=
  decidable_of_iff
    (PlainName el.tag ∧ (∀ kv ∈ el.attrib, PlainName kv.1) ∧ (el.attrib.map (·.1)).Nodup)
    ⟨fun h => ⟨h.1, h.2.1, h.2.2⟩, fun h => ⟨h.tag, h.attrib, h.nodup⟩⟩

/-- Every element of the document is well named. -/
def Elem.WellFormed (root : Elem) : Prop := ∀ el ∈ root.iter, Elem.NamedWell el

instance (root : Elem) : Decidable (Elem.WellFormed root) :=
  inferInstanceAs (Decidable (∀ el ∈ root.iter, Elem.NamedWell el))

theorem Elem.WellFormed.self {root : Elem} (h : Elem.WellFormed root) : Elem.NamedWell root := by
  refine h root ?_
  cases root
  exact List.mem_cons_self

theorem Elem.WellFormed.child {t x : String} {a : List (String × String)} {cs : List Elem}
    (h : Elem.WellFormed (.mk t a x cs)) {c : Elem} (hc : c ∈ cs) : Elem.WellFormed c :=
  fun el hel => h el (List.mem_cons_of_mem _ (Elem.mem_iterAll.mpr ⟨c, hc, hel⟩))

theorem Elem.WellFormed.stripVolatile {root : Elem} (h : Elem.WellFormed root) :
    Elem.WellFormed (stripVolatile root) := by
  obtain ⟨t, a, x, cs⟩ := root
  intro el hel
  rcases List.mem_cons.mp hel with rfl | hel
  · exact ⟨h.self.tag, h.self.attrib, h.self.nodup⟩
  · obtain ⟨c, hc, hel⟩ := Elem.mem_iterAll.mp hel
    exact h.child (List.mem_of_mem_filter hc) el hel

/-! ### Siblings -/

/-- The children `todo` of `all`, each with its segment; `seen` are the tags met
so far. -/
def siblings : (todo all : List Elem) → (seen : List String) → List (String × Elem)
  | [], _, _ => []
  | c :: todo, all, seen =>
    (if tagTotal all c.tag = 1 then c.tag
      else c.tag ++ "[" ++ toString ((seen.filter (· == c.tag)).length + 1) ++ "]", c) ::
      siblings todo all (c.tag :: seen)

theorem walkChildren_eq (todo all : List Elem) (seen : List String) (path : String) :
    walkChildren todo all seen path =
      (siblings todo all seen).flatMap fun sc => walk sc.2 (path ++ "/" ++ sc.1) := by
  induction todo generalizing seen with
  | nil => rw [walkChildren, siblings, List.flatMap_nil]
  | cons c todo ih => rw [walkChildren, siblings, List.flatMap_cons, ih]

theorem nodeChildren_eq (L : Lowercase) (todo all : List Elem) (seen : List String) (path : String)
    (redacted : Bool) :
    nodeChildren L todo all seen path redacted =
      (siblings todo all seen).map fun sc => node L sc.2 (path ++ "/" ++ sc.1) redacted := by
  induction todo generalizing seen with
  | nil => rw [nodeChildren, siblings, List.map_nil]
  | cons c todo ih => rw [nodeChildren, siblings, List.map_cons, ih]

theorem siblings_snd (todo all : List Elem) (seen : List String) :
    (siblings todo all seen).map (·.2) = todo := by
  induction todo generalizing seen with
  | nil => rfl
  | cons c todo ih => rw [siblings, List.map_cons, ih]

theorem mem_of_siblings {todo all : List Elem} {seen : List String} {sc : String × Elem}
    (h : sc ∈ siblings todo all seen) : sc.2 ∈ todo := by
  rw [← siblings_snd todo all seen]
  exact List.mem_map_of_mem h

theorem siblings_seg {todo all : List Elem} {seen : List String} {sc : String × Elem}
    (h : sc ∈ siblings todo all seen) :
    (tagTotal all sc.2.tag = 1 ∧ sc.1 = sc.2.tag) ∨
      (tagTotal all sc.2.tag ≠ 1 ∧ ∃ n, (seen.filter (· == sc.2.tag)).length < n ∧
        sc.1 = sc.2.tag ++ "[" ++ toString n ++ "]") := by
  induction todo generalizing seen with
  | nil => cases h
  | cons c todo ih =>
    rcases List.mem_cons.mp h with rfl | h
    · by_cases hone : tagTotal all c.tag = 1
      · exact .inl ⟨hone, if_pos hone⟩
      · exact .inr ⟨hone, _, Nat.lt_succ_self _, if_neg hone⟩
    · rcases ih h with hseg | ⟨hne, n, hn, hseg⟩
      · exact .inl hseg
      · refine .inr ⟨hne, n, lt_of_le_of_lt ?_ hn, hseg⟩
        rw [List.filter_cons]
        split
        · exact Nat.le_succ _
        · exact le_rfl

theorem passes_index {stop : Char} (hs : stop ∈ ['/', '=']) (n : Nat) :
    Passes stop ("[" ++ toString n ++ "]").toList := by
  have hdigits : Passes stop (Nat.toDigits 10 n) := by
    apply Passes.of_forall
    intro c hc
    have hdigit : c.isDigit = true := Nat.isDigit_of_mem_toDigits (by decide) (by decide) hc
    have hnot : ∀ c ∈ ['/', '=', '{'], Char.isDigit c = false := by
      simp only [List.mem_cons, List.not_mem_nil, or_false, forall_eq_or_imp, forall_eq]
      decide
    constructor
    · rintro rfl
      rw [hnot c (List.mem_append_left ['{'] hs)] at hdigit
      cases hdigit
    · rintro rfl
      rw [hnot '{' (by decide)] at hdigit
      cases hdigit
  have hbrackets : ∀ stop ∈ ['/', '='], '[' ≠ stop ∧ ']' ≠ stop := by simp
  have hopen : Passes stop ['['] := Passes.of_forall (by simpa using (hbrackets stop hs).1)
  have hclose : Passes stop [']'] := Passes.of_forall (by simpa using (hbrackets stop hs).2)
  have hall := (hopen.append hdigits).append hclose
  simpa [String.toList_append, Nat.toString_eq_ofList_toDigits] using hall

theorem siblings_passes {todo all : List Elem} {seen : List String} {sc : String × Elem}
    (h : sc ∈ siblings todo all seen) (hp : PlainName sc.2.tag) {stop : Char}
    (hs : stop ∈ ['/', '=']) : Passes stop sc.1.toList := by
  rcases siblings_seg h with ⟨-, hseg⟩ | ⟨-, n, -, hseg⟩
  · rw [hseg]
    exact hp.passes hs
  · rw [hseg, String.append_assoc, String.append_assoc, String.toList_append,
      ← String.append_assoc]
    exact (hp.passes hs).append (passes_index hs n)

theorem siblings_head {todo all : List Elem} {seen : List String} {sc : String × Elem}
    (h : sc ∈ siblings todo all seen) (hp : PlainName sc.2.tag) :
    ∃ c cs, sc.1.toList = c :: cs ∧ c ≠ '@' := by
  obtain ⟨c, cs, hc, hat⟩ := hp.head
  rcases siblings_seg h with ⟨-, hseg⟩ | ⟨-, n, -, hseg⟩
  · exact ⟨c, cs, hseg ▸ hc, hat⟩
  · exact ⟨c, cs ++ ("[" ++ toString n ++ "]").toList, by simp [hseg, hc], hat⟩

theorem indexed_inj {t t' : String} {n n' : Nat}
    (h : t ++ "[" ++ toString n ++ "]" = t' ++ "[" ++ toString n' ++ "]") : t = t' ∧ n = n' := by
  have hchars := congrArg String.toList h
  simp only [String.toList_append] at hchars
  have hcut := List.append_cancel_right hchars
  -- read from the end, the digits stop at the bracket
  have hrev := congrArg List.reverse hcut
  have hback : ∀ (s : String) (n : Nat),
      ((s.toList ++ "[".toList ++ (toString n).toList).reverse).takeWhile (· != '[') =
        (toString n).toList.reverse := by
    intro s n
    rw [List.reverse_append, List.reverse_append, List.takeWhile_append_of_pos]
    · simp
    · intro c hc
      have hdigit : c.isDigit = true := by
        have hmem : c ∈ Nat.toDigits 10 n := by
          simpa [Nat.toString_eq_ofList_toDigits] using hc
        exact Nat.isDigit_of_mem_toDigits (by decide) (by decide) hmem
      have hne : c ≠ '[' := by
        rintro rfl
        exact absurd hdigit (by decide)
      simpa using hne
  have hdigits : (toString n).toList = (toString n').toList := by
    have htake := congrArg (List.takeWhile (· != '[')) hrev
    rw [hback, hback] at htake
    exact List.reverse_injective htake
  rw [hdigits] at hcut
  have htag := List.append_cancel_right (List.append_cancel_right hcut)
  have hnum := congrArg (fun ds => Nat.ofDigitChars 10 ds 0) hdigits
  exact ⟨String.toList_injective htag, by simpa [Nat.toString_eq_ofList_toDigits] using hnum⟩

/-- **Siblings have different segments.** -/
theorem siblings_nodup {todo all : List Elem} {seen : List String}
    (hp : ∀ c ∈ todo, ∀ t, c.tag ≠ t ++ "]")
    (hall : ∀ t, (todo.filter (·.tag == t)).length ≤ tagTotal all t) :
    ((siblings todo all seen).map (·.1)).Nodup := by
  induction todo generalizing seen with
  | nil => exact List.nodup_nil
  | cons c todo ih =>
    obtain ⟨hc, htodo⟩ := List.forall_mem_cons.mp hp
    rw [siblings, List.map_cons, List.nodup_cons]
    refine ⟨fun hmem => ?_, ih htodo fun t => ?_⟩
    · obtain ⟨sc, hsc, heq⟩ := List.mem_map.mp hmem
      have hsc' := mem_of_siblings hsc
      have htag := htodo sc.2 hsc'
      -- a later sibling of the same tag makes the tag a repeated one
      have htwo : sc.2.tag = c.tag → tagTotal all c.tag ≠ 1 := by
        intro ht hone
        have hle := hall c.tag
        have hpos : 0 < (todo.filter (·.tag == c.tag)).length :=
          List.length_pos_of_mem (List.mem_filter.mpr ⟨hsc', by simp [ht]⟩)
        rw [List.filter_cons_of_pos (by simp), List.length_cons] at hle
        omega
      rcases siblings_seg hsc with ⟨hone, hseg⟩ | ⟨hne, n, hn, hseg⟩
      · rw [hseg] at heq
        by_cases h1 : tagTotal all c.tag = 1
        · rw [if_pos h1] at heq
          exact htwo heq h1
        · rw [if_neg h1] at heq
          exact htag _ heq
      · rw [hseg] at heq
        by_cases h1 : tagTotal all c.tag = 1
        · rw [if_pos h1] at heq
          exact hc _ heq.symm
        · rw [if_neg h1] at heq
          obtain ⟨ht, hnum⟩ := indexed_inj heq
          rw [ht, List.filter_cons_of_pos (by simp), List.length_cons] at hn
          omega
    · refine le_trans ?_ (hall t)
      rw [List.filter_cons]
      split
      · exact Nat.le_succ _
      · exact le_rfl

/-! ### Paths -/

/-- The path lies at or below `path`. -/
def Below (path key : String) : Prop :=
  ∃ r, key.toList = path.toList ++ r ∧ (r = [] ∨ ∃ r', r = '/' :: r')

theorem Below.refl (path : String) : Below path path := ⟨[], by simp, .inl rfl⟩

theorem Below.of_segment {path seg key : String} (h : Below (path ++ "/" ++ seg) key) :
    ∃ r, key.toList = path.toList ++ '/' :: (seg.toList ++ r) ∧ (r = [] ∨ ∃ r', r = '/' :: r') := by
  obtain ⟨r, hr, hend⟩ := h
  exact ⟨r, by simpa [String.toList_append] using hr, hend⟩

theorem Below.trans_segment {path seg key : String} (h : Below (path ++ "/" ++ seg) key) :
    Below path key := by
  obtain ⟨r, hr, -⟩ := h.of_segment
  exact ⟨_, hr, .inr ⟨_, rfl⟩⟩

theorem Below.segment_unique {path seg seg' key : String} (hs : Passes '/' seg.toList)
    (hs' : Passes '/' seg'.toList) (h : Below (path ++ "/" ++ seg) key)
    (h' : Below (path ++ "/" ++ seg') key) : seg = seg' := by
  obtain ⟨r, hr, hend⟩ := h.of_segment
  obtain ⟨r', hr', hend'⟩ := h'.of_segment
  rw [hr] at hr'
  have htail : seg.toList ++ r = seg'.toList ++ r' :=
    (List.cons.inj (List.append_cancel_left hr')).2
  have hstop : ∀ {r : List Char}, (r = [] ∨ ∃ r', r = '/' :: r') → scan '/' false r = [] := by
    rintro r (rfl | ⟨r', rfl⟩)
    · rfl
    · exact scan_stop _ _
  exact String.toList_injective (hs.unique hs' (hstop hend) (hstop hend') htail)

theorem not_below_segment_self {path seg : String} : ¬ Below (path ++ "/" ++ seg) path := by
  intro h
  obtain ⟨r, hr, -⟩ := h.of_segment
  have hlen := congrArg List.length hr
  simp at hlen

mutual

def paths : Node → List String
  | .mk _ path attributes children _ _ =>
    path :: (attributes.map (fun kv => path ++ "/@" ++ kv.1) ++ pathsAll children)

def pathsAll : List Node → List String
  | [] => []
  | n :: ns => paths n ++ pathsAll ns

end

theorem pathsAll_eq (ns : List Node) : pathsAll ns = ns.flatMap paths := by
  induction ns with
  | nil => rw [pathsAll, List.flatMap_nil]
  | cons n ns ih => rw [pathsAll, List.flatMap_cons, ih]

/-- The children of a node, as the segments give them. -/
theorem node_children (L : Lowercase) (cs : List Elem) (path : String) (redacted : Bool) :
    (if cs.isEmpty then [] else nodeChildren L cs cs [] path redacted) =
      (siblings cs cs []).map fun sc => node L sc.2 (path ++ "/" ++ sc.1) redacted := by
  rw [← nodeChildren_eq]
  cases cs <;> rfl

theorem paths_node (L : Lowercase) (t x path : String) (a : List (String × String)) (cs : List Elem)
    (redacted : Bool) :
    paths (node L (.mk t a x cs) path redacted) =
      path :: (a.map (fun kv => path ++ "/@" ++ kv.1) ++ (siblings cs cs []).flatMap fun sc =>
        paths (node L sc.2 (path ++ "/" ++ sc.1) (redacted || isSensitive L t))) := by
  rw [node, paths, node_children, pathsAll_eq, List.flatMap_map, List.map_map]
  rfl

theorem paths_below (L : Lowercase) (el : Elem) :
    ∀ path redacted, ∀ key ∈ paths (node L el path redacted), Below path key := by
  induction el using Elem.induction with
  | h t a x cs ih =>
    intro path redacted key hkey
    rw [paths_node] at hkey
    rcases List.mem_cons.mp hkey with rfl | hkey
    · exact Below.refl _
    rcases List.mem_append.mp hkey with hkey | hkey
    · obtain ⟨kv, -, rfl⟩ := List.mem_map.mp hkey
      exact ⟨'/' :: '@' :: kv.1.toList, by simp [String.toList_append], .inr ⟨_, rfl⟩⟩
    · obtain ⟨sc, hsc, hkey⟩ := List.mem_flatMap.mp hkey
      exact (ih sc.2 (mem_of_siblings hsc) _ _ key hkey).trans_segment

/-- **In a well-formed document every path names one node or attribute.** -/
theorem paths_nodup (L : Lowercase) (el : Elem) :
    Elem.WellFormed el → ∀ path redacted, (paths (node L el path redacted)).Nodup := by
  induction el using Elem.induction with
  | h t a x cs ih =>
    intro hwf path redacted
    have hplain : ∀ sc ∈ siblings cs cs [], PlainName sc.2.tag := fun sc hsc =>
      (hwf.child (mem_of_siblings hsc)).self.tag
    have hslash : ∀ sc ∈ siblings cs cs [], Passes '/' sc.1.toList := fun sc hsc =>
      siblings_passes hsc (hplain sc hsc) (by decide)
    rw [paths_node, List.nodup_cons]
    refine ⟨fun hmem => ?_, List.nodup_append.mpr ⟨?_, ?_, ?_⟩⟩
    · -- everything else lies below a segment
      rcases List.mem_append.mp hmem with hmem | hmem
      · obtain ⟨kv, -, hkv⟩ := List.mem_map.mp hmem
        have hlen := congrArg String.length hkv
        rw [String.length_append, String.length_append] at hlen
        have htwo : "/@".length = 2 := rfl
        omega
      · obtain ⟨sc, hsc, hmem⟩ := List.mem_flatMap.mp hmem
        exact not_below_segment_self (paths_below L sc.2 _ _ path hmem)
    · -- attributes have different names
      have hnodup := hwf.self.nodup
      rw [show a.map (fun kv => path ++ "/@" ++ kv.1) =
        (a.map (·.1)).map (fun k => path ++ "/@" ++ k) by rw [List.map_map]; rfl]
      refine List.Nodup.map (fun k k' hk => ?_) hnodup
      have hchars := congrArg String.toList hk
      simp only [String.toList_append, List.append_assoc] at hchars
      exact String.toList_injective (List.append_cancel_left (List.append_cancel_left hchars))
    · rw [List.nodup_flatMap]
      refine ⟨fun sc hsc => ih sc.2 (mem_of_siblings hsc) (hwf.child (mem_of_siblings hsc)) _ _, ?_⟩
      have hsegs : (siblings cs cs []).Pairwise fun sc sc' => sc.1 ≠ sc'.1 :=
        List.pairwise_map.mp
          (siblings_nodup (fun c hc _ => (hwf.child hc).self.tag.ne_indexed) fun _ => le_rfl)
      refine hsegs.imp_of_mem fun {sc sc'} hsc hsc' hne => ?_
      intro key hkey hkey'
      exact hne (Below.segment_unique (hslash sc hsc) (hslash sc' hsc')
        (paths_below L sc.2 _ _ key hkey) (paths_below L sc'.2 _ _ key hkey'))
    · -- a tag holds no at sign
      intro key hkey key' hkey' heq
      subst heq
      obtain ⟨kv, hkv, rfl⟩ := List.mem_map.mp hkey
      obtain ⟨sc, hsc, hkey'⟩ := List.mem_flatMap.mp hkey'
      obtain ⟨r, hr, -⟩ := (paths_below L sc.2 _ _ _ hkey').of_segment
      obtain ⟨c, cs, hc, hat⟩ := siblings_head hsc (hplain sc hsc)
      rw [hc] at hr
      simp only [String.toList_append, List.append_assoc, List.cons_append] at hr
      exact hat (List.cons.inj (List.cons.inj (List.append_cancel_left hr)).2).1.symm

/-! ### Looking a path up -/

theorem valueAt_isSome {root : Elem} {path : String} :
    (valueAt root path).isSome ↔ path ∈ (flatten root).map (·.1) := by
  rw [valueAt, List.lookup_isSome_iff, List.mem_map]
  constructor
  · rintro ⟨pv, hpv, hkey⟩
    exact ⟨pv, List.mem_reverse.mp hpv, (beq_iff_eq.mp hkey).symm⟩
  · rintro ⟨pv, hpv, rfl⟩
    exact ⟨pv, List.mem_reverse.mpr hpv, beq_self_eq_true _⟩

theorem valueAt_eq_some_of_nodup {root : Elem} (h : ((flatten root).map (·.1)).Nodup)
    {path v : String} : valueAt root path = some v ↔ (path, v) ∈ flatten root := by
  have hmem : ∀ w, valueAt root path = some w → (path, w) ∈ flatten root := by
    intro w hw
    obtain ⟨l, l', hl, -⟩ := List.lookup_eq_some_iff.mp hw
    apply List.mem_reverse.mp
    rw [hl]
    simp
  refine ⟨hmem v, fun hv => ?_⟩
  obtain ⟨w, hw⟩ := Option.isSome_iff_exists.mp
    (valueAt_isSome.mpr (List.mem_map_of_mem (f := (·.1)) hv))
  have hpair := List.inj_on_of_nodup_map h hv (hmem w hw) rfl
  rw [hw, (Prod.mk.inj hpair).2]

end Opngms
