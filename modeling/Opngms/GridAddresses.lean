/-
Opngms/GridAddresses.lean

What the walk of `parse_model` makes of the nodes of a definition.

The walk begins a new prefix below an `ArrayField` and keeps one list of grids, so the grid
of an `ArrayField` in another one is named by the chain from there, and it does not go below
a typed node.  Where neither occurs, every typed node is the field of the grid or model that
it stands in, and every grid and scalar has the path that leads to it (**`walkAll_plain`**).

That the walk passes a node over is seen from a count (`count_walk`), and that it cuts a
path short from a sum of lengths (`length_walk`).
-/
import Mathlib.Algebra.GroupWithZero.Nat
import Opngms.ModelParser

namespace Opngms

namespace CatalogTool

open LiveValues

/-! ### Forests -/

section Forests

variable (py : StrMethods)

theorem walkAll_fst (pre : String) (cs : List Elem) :
    (walkAll py pre cs).1 = cs.flatMap fun c => (walkAt py pre c).1 := by
  induction cs with
  | nil => rfl
  | cons c cs ih => rw [walkAll, List.flatMap_cons, ← ih]

theorem walkAll_snd (pre : String) (cs : List Elem) :
    (walkAll py pre cs).2 = cs.flatMap fun c => (walkAt py pre c).2 := by
  induction cs with
  | nil => rfl
  | cons c cs ih => rw [walkAll, List.flatMap_cons, ← ih]

theorem placedAll_eq (owner : Option String) (rel full : List String) (cs : List Elem) :
    placedAll py owner rel full cs = cs.flatMap (placedAt py owner rel full) := by
  induction cs with
  | nil => rfl
  | cons c cs ih => rw [placedAll, List.flatMap_cons, ← ih]

theorem arraysAll_eq (full : List String) (cs : List Elem) :
    arraysAll full cs = cs.flatMap (arraysAt full) := by
  induction cs with
  | nil => rfl
  | cons c cs ih => rw [arraysAll, List.flatMap_cons, ← ih]

theorem scalarsAll_eq (full : List String) (cs : List Elem) :
    scalarsAll full cs = cs.flatMap (scalarsAt full) := by
  induction cs with
  | nil => rfl
  | cons c cs ih => rw [scalarsAll, List.flatMap_cons, ← ih]

theorem dotted_concat (chain : List String) (tag : String) :
    dotted (chain ++ [tag]) = joinPath (dotted chain) tag :=
  List.foldl_concat ..

end Forests

/-! ### What a definition must avoid -/

/-- Nothing typed stands below a typed node that is no array. -/
def Leafy (el : Elem) : Prop :=
  IsTyped el → ∀ d ∈ Elem.iterAll el.children, d.get "type" = none

def Flat (el : Elem) : Prop := IsArray el → ∀ d ∈ Elem.iterAll el.children, ¬ IsArray d

theorem kinds (el : Elem) : IsArray el ∨ IsTyped el ∨ el.get "type" = none := by
  unfold IsArray IsTyped
  cases h : el.get "type" with
  | none => exact .inr (.inr rfl)
  | some cls =>
    by_cases hcls : cls = "ArrayField"
    · exact .inl (by rw [hcls])
    · exact .inr (.inl ⟨cls, rfl, hcls⟩)

section Equations

variable (py : StrMethods) {tag text : String} {attrib : List (String × String)}
  {children : List Elem}

theorem walkAt_array (h : IsArray (.mk tag attrib text children)) (pre : String) :
    walkAt py pre (.mk tag attrib text children) =
      ([], (walkAll py "" children).2 ++
        [{ path := joinPath pre tag, fields := (walkAll py "" children).1 }]) := by
  unfold IsArray at h
  rw [walkAt]
  simp only [h, if_pos]

theorem walkAt_none (h : (Elem.mk tag attrib text children).get "type" = none) (pre : String) :
    walkAt py pre (.mk tag attrib text children) = walkAll py (joinPath pre tag) children := by
  rw [walkAt]
  simp only [h]

theorem placedAt_array (h : IsArray (.mk tag attrib text children)) (owner : Option String)
    (rel full : List String) :
    placedAt py owner rel full (.mk tag attrib text children) =
      placedAll py (some (dotted (full ++ [tag]))) [] (full ++ [tag]) children := by
  unfold IsArray at h
  rw [placedAt]
  simp only [h, if_pos]

theorem placedAt_none (h : (Elem.mk tag attrib text children).get "type" = none)
    (owner : Option String) (rel full : List String) :
    placedAt py owner rel full (.mk tag attrib text children) =
      placedAll py owner (rel ++ [tag]) (full ++ [tag]) children := by
  rw [placedAt]
  simp only [h]

theorem at_typed (h : IsTyped (.mk tag attrib text children)) (pre : String)
    (owner : Option String) (rel full : List String) :
    ∃ field : String → Field, (∀ path, (field path).path = path) ∧
      walkAt py pre (.mk tag attrib text children) = ([field (joinPath pre tag)], []) ∧
      placedAt py owner rel full (.mk tag attrib text children) =
        (owner, field (dotted (rel ++ [tag]))) ::
          placedAll py owner (rel ++ [tag]) (full ++ [tag]) children := by
  obtain ⟨cls, hget, hcls⟩ := h
  refine ⟨fun path => fieldOf py path cls (.mk tag attrib text children), fun path => rfl, ?_, ?_⟩
  · rw [walkAt]
    simp only [hget, if_neg hcls]
  · rw [placedAt]
    simp only [hget, if_neg hcls]

theorem arraysAt_array (h : IsArray (.mk tag attrib text children)) (full : List String) :
    arraysAt full (.mk tag attrib text children) =
      ⟨full ++ [tag], .mk tag attrib text children⟩ :: arraysAll (full ++ [tag]) children := by
  rw [arraysAt]
  exact congrArg (· ++ _) (if_pos h)

theorem arraysAt_other (h : ¬ IsArray (.mk tag attrib text children)) (full : List String) :
    arraysAt full (.mk tag attrib text children) = arraysAll (full ++ [tag]) children := by
  rw [arraysAt]
  exact congrArg (· ++ _) (if_neg h)

theorem scalarsAt_array (h : IsArray (.mk tag attrib text children)) (full : List String) :
    scalarsAt full (.mk tag attrib text children) = [] := by
  unfold IsArray at h
  rw [scalarsAt]
  simp only [h, if_pos]

theorem scalarsAt_none (h : (Elem.mk tag attrib text children).get "type" = none)
    (full : List String) :
    scalarsAt full (.mk tag attrib text children) = scalarsAll (full ++ [tag]) children := by
  rw [scalarsAt]
  simp only [h]

theorem scalarsAt_typed (h : IsTyped (.mk tag attrib text children)) (full : List String) :
    scalarsAt full (.mk tag attrib text children) =
      (full ++ [tag]) :: scalarsAll (full ++ [tag]) children := by
  obtain ⟨cls, hget, hcls⟩ := h
  rw [scalarsAt]
  simp only [hget, if_neg hcls]

end Equations

theorem not_isArray_of_typed {el : Elem} (h : IsTyped el) : ¬ IsArray el := by
  obtain ⟨cls, hget, hcls⟩ := h
  intro harray
  exact hcls (Option.some.inj (hget.symm.trans harray))

theorem not_isArray_of_none {el : Elem} (h : el.get "type" = none) : ¬ IsArray el := by
  intro harray
  cases h.symm.trans harray

theorem not_isTyped_of_none {el : Elem} (h : el.get "type" = none) : ¬ IsTyped el := by
  rintro ⟨cls, hget, -⟩
  cases h.symm.trans hget

/-! ### No node is passed over -/

section Count

variable (py : StrMethods)

def walked (w : List Field × List Grid) : Nat :=
  w.1.length + (w.2.map fun g => g.fields.length).sum

theorem walked_append (w w' : List Field × List Grid) :
    walked (w.1 ++ w'.1, w.2 ++ w'.2) = walked w + walked w' := by
  simp only [walked, List.length_append, List.map_append, List.sum_append]
  omega

theorem length_placedIn (w : List Field × List Grid) :
    (placedIn w.1 w.2).length = walked w := by
  rw [placedIn, walked, List.length_append, List.length_map, List.length_flatMap]
  simp only [List.length_map]

theorem untyped_of_empty (el : Elem) (owner : Option String) (rel full : List String)
    (hplaced : placedAt py owner rel full el = []) (harrays : arraysAt full el = []) :
    ∀ d ∈ el.iter, d.get "type" = none := by
  induction el using Elem.induction generalizing owner rel full with
  | h tag attrib text children ih =>
    have hbelow : ∀ owner rel full, placedAll py owner rel full children = [] →
        arraysAll full children = [] → ∀ d ∈ Elem.iterAll children, d.get "type" = none := by
      intro owner rel full hplaced harrays d hd
      obtain ⟨c, hc, hd⟩ := Elem.mem_iterAll.mp hd
      rw [placedAll_eq, List.flatMap_eq_nil_iff] at hplaced
      rw [arraysAll_eq, List.flatMap_eq_nil_iff] at harrays
      exact ih c hc owner rel full (hplaced c hc) (harrays c hc) d hd
    rcases kinds (.mk tag attrib text children) with h | h | h
    · rw [arraysAt_array h] at harrays
      cases harrays
    · obtain ⟨field, -, -, hat⟩ := at_typed py h "" owner rel full
      rw [hat] at hplaced
      cases hplaced
    · rw [placedAt_none py h] at hplaced
      rw [arraysAt_other (not_isArray_of_none h)] at harrays
      intro d hd
      rw [Elem.iter, List.mem_cons] at hd
      rcases hd with rfl | hd
      · exact h
      · exact hbelow owner _ _ hplaced harrays d hd

/-- What `count_walk` says of a walk. -/
def Counts (w : List Field × List Grid) (placed arrays : Nat) (nodes : List Elem) : Prop :=
  walked w ≤ placed ∧ w.2.length ≤ arrays ∧
    (walked w = placed → w.2.length = arrays → ∀ d ∈ nodes, Leafy d)

theorem counts_all {cs : List Elem} {pre : String} {owner : Option String}
    {rel full : List String}
    (h : ∀ c ∈ cs, Counts (walkAt py pre c) (placedAt py owner rel full c).length
      (arraysAt full c).length c.iter) :
    Counts (walkAll py pre cs) (placedAll py owner rel full cs).length
      (arraysAll full cs).length (Elem.iterAll cs) := by
  induction cs with
  | nil =>
    refine ⟨Nat.le_refl _, Nat.le_refl _, fun _ _ d hd => ?_⟩
    cases hd
  | cons c cs ih =>
    obtain ⟨h₁, h₂, h₃⟩ := h c List.mem_cons_self
    obtain ⟨h₁', h₂', h₃'⟩ := ih fun c' hc' => h c' (List.mem_cons_of_mem c hc')
    rw [Counts, walkAll, walked_append, placedAll, arraysAll, List.length_append,
      List.length_append, List.length_append, Elem.iterAll]
    refine ⟨by omega, by omega, fun hplaced harrays d hd => ?_⟩
    rcases List.mem_append.mp hd with hd | hd
    · exact h₃ (by omega) (by omega) d hd
    · exact h₃' (by omega) (by omega) d hd

/-- **The walk leaves no more fields and grids than there are nodes**, and as many only if
nothing typed stands below a typed node. -/
theorem count_walk (el : Elem) (pre : String) (owner : Option String) (rel full : List String) :
    Counts (walkAt py pre el) (placedAt py owner rel full el).length (arraysAt full el).length
      el.iter := by
  induction el using Elem.induction generalizing pre owner rel full with
  | h tag attrib text children ih =>
    have hbelow (pre : String) (owner : Option String) (rel full : List String) :=
      @counts_all py children pre owner rel full fun c hc => ih c hc pre owner rel full
    rcases kinds (.mk tag attrib text children) with h | h | h
    · rw [walkAt_array py h, placedAt_array py h, arraysAt_array h, Elem.iter]
      obtain ⟨h₁, h₂, h₃⟩ := hbelow "" (some (dotted (full ++ [tag]))) [] (full ++ [tag])
      unfold walked at h₁ h₃
      simp only [Counts, walked, List.length_nil, List.length_append, List.length_cons,
        List.map_append, List.sum_append, List.map_cons, List.map_nil, List.sum_cons, List.sum_nil]
      refine ⟨by omega, by omega, fun hplaced harrays d hd => ?_⟩
      rcases List.mem_cons.mp hd with rfl | hd
      · intro htyped
        exact absurd h (not_isArray_of_typed htyped)
      · exact h₃ (by omega) (by omega) d hd
    · obtain ⟨field, -, hwalk, hat⟩ := at_typed py h pre owner rel full
      rw [hwalk, hat, arraysAt_other (not_isArray_of_typed h), Elem.iter]
      simp only [Counts, walked, List.length_nil, List.length_cons, List.map_nil, List.sum_nil]
      refine ⟨by omega, by omega, fun hplaced harrays d hd => ?_⟩
      -- nothing is left for the nodes below
      have huntyped : ∀ d ∈ Elem.iterAll children, d.get "type" = none := by
        intro d hd
        obtain ⟨c, hc, hd⟩ := Elem.mem_iterAll.mp hd
        have hnil : placedAll py owner (rel ++ [tag]) (full ++ [tag]) children = [] :=
          List.length_eq_zero_iff.mp (by omega)
        have hnil' : arraysAll (full ++ [tag]) children = [] :=
          List.length_eq_zero_iff.mp (by omega)
        rw [placedAll_eq, List.flatMap_eq_nil_iff] at hnil
        rw [arraysAll_eq, List.flatMap_eq_nil_iff] at hnil'
        exact untyped_of_empty py c owner _ _ (hnil c hc) (hnil' c hc) d hd
      rcases List.mem_cons.mp hd with rfl | hd
      · intro _
        exact huntyped
      · intro htyped
        exact absurd htyped (not_isTyped_of_none (huntyped d hd))
    · rw [walkAt_none py h, placedAt_none py h, arraysAt_other (not_isArray_of_none h), Elem.iter]
      obtain ⟨h₁, h₂, h₃⟩ := hbelow (joinPath pre tag) owner (rel ++ [tag]) (full ++ [tag])
      refine ⟨h₁, h₂, fun hplaced harrays d hd => ?_⟩
      rcases List.mem_cons.mp hd with rfl | hd
      · intro htyped
        exact absurd htyped (not_isTyped_of_none h)
      · exact h₃ hplaced harrays d hd

end Count

/-! ### No path is cut short -/

def Named (chain : List String) : Prop := ∀ tag ∈ chain, tag ≠ ""

theorem Named.concat {chain : List String} (h : Named chain) {tag : String} (htag : tag ≠ "") :
    Named (chain ++ [tag]) := by
  intro t ht
  rcases List.mem_append.mp ht with ht | ht
  · exact h t ht
  · exact List.mem_singleton.mp ht ▸ htag

theorem toList_dotted_cons {tag : String} {chain : List String} (h : Named (tag :: chain)) :
    (dotted (tag :: chain)).toList =
      tag.toList ++ (chain.map fun s => '.' :: s.toList).flatten := by
  have hfirst : joinPath "" tag = tag := if_pos rfl
  rw [dotted, List.foldl_cons, hfirst]
  exact toList_foldl_joinPath (fun t ht => h t (List.mem_cons_of_mem _ ht)) (h tag List.mem_cons_self)

theorem dotted_ne_empty {chain : List String} (h : Named chain) (hne : chain ≠ []) :
    dotted chain ≠ "" := by
  cases chain with
  | nil => exact absurd rfl hne
  | cons tag chain =>
    intro heq
    have hlist := congrArg String.toList heq
    rw [toList_dotted_cons h] at hlist
    have htag : tag.toList = [] := (List.append_eq_nil_iff.mp hlist).1
    exact h tag List.mem_cons_self (String.toList_injective htag)

theorem toList_dotted_append {p l : List String} (h : Named (p ++ l)) (hp : p ≠ []) (hl : l ≠ []) :
    (dotted (p ++ l)).toList = (dotted p).toList ++ '.' :: (dotted l).toList := by
  have hnamed : Named p := fun t ht => h t (List.mem_append_left _ ht)
  have hnamed' : Named l := fun t ht => h t (List.mem_append_right _ ht)
  cases l with
  | nil => exact absurd rfl hl
  | cons tag l =>
    rw [toList_dotted_cons hnamed', dotted, List.foldl_append, ← dotted,
      toList_foldl_joinPath hnamed' (dotted_ne_empty hnamed hp), List.map_cons, List.flatten_cons]
    rfl

theorem length_dotted_lt {rel full : List String} {tag : String} (hsuffix : rel <:+ full)
    (hne : rel ≠ full) (hfull : Named full) (htag : tag ≠ "") :
    (dotted (rel ++ [tag])).length < (dotted (full ++ [tag])).length := by
  obtain ⟨p, rfl⟩ := hsuffix
  have hp : p ≠ [] := by
    rintro rfl
    exact hne rfl
  have hnamed := hfull.concat htag
  rw [List.append_assoc] at hnamed ⊢
  have hlist := congrArg List.length (toList_dotted_append hnamed hp (by simp))
  rw [List.length_append, List.length_cons] at hlist
  rw [← String.length_toList, ← String.length_toList, hlist]
  omega

section Lengths

variable (py : StrMethods)

theorem not_isArray_of_empty (el : Elem) (full : List String) (h : arraysAt full el = []) :
    ∀ d ∈ el.iter, ¬ IsArray d := by
  induction el using Elem.induction generalizing full with
  | h tag attrib text children ih =>
    by_cases harray : IsArray (.mk tag attrib text children)
    · rw [arraysAt_array harray] at h
      cases h
    · rw [arraysAt_other harray, arraysAll_eq, List.flatMap_eq_nil_iff] at h
      intro d hd
      rw [Elem.iter, List.mem_cons] at hd
      rcases hd with rfl | hd
      · exact harray
      · obtain ⟨c, hc, hd⟩ := Elem.mem_iterAll.mp hd
        exact ih c hc _ (h c hc) d hd

theorem arraysAt_of_no_array (el : Elem) (full : List String) (h : ∀ d ∈ el.iter, ¬ IsArray d) :
    arraysAt full el = [] := by
  induction el using Elem.induction generalizing full with
  | h tag attrib text children ih =>
    rw [Elem.iter, List.forall_mem_cons] at h
    rw [arraysAt_other h.1, arraysAll_eq, List.flatMap_eq_nil_iff]
    intro c hc
    exact ih c hc _ fun d hd => h.2 d (Elem.mem_iterAll.mpr ⟨c, hc, hd⟩)

theorem arraysAll_of_no_array {cs : List Elem} (full : List String)
    (h : ∀ d ∈ Elem.iterAll cs, ¬ IsArray d) : arraysAll full cs = [] := by
  rw [arraysAll_eq, List.flatMap_eq_nil_iff]
  intro c hc
  exact arraysAt_of_no_array c full fun d hd => h d (Elem.mem_iterAll.mpr ⟨c, hc, hd⟩)

def pathLengths (grids : List Grid) : Nat := (grids.map fun g => g.path.length).sum

def chainLengths (arrays : List Node) : Nat := (arrays.map fun n => (dotted n.chain).length).sum

/-- What `length_walk` says of the grids of a walk below a chain `full`, whose path begins
at `rel`. -/
def Shortens (rel full : List String) (grids : List Grid) (arrays : List Node)
    (nodes : List Elem) : Prop :=
  pathLengths grids ≤ chainLengths arrays ∧
    (pathLengths grids = chainLengths arrays →
      (rel ≠ full → arrays = []) ∧ ∀ d ∈ nodes, Flat d)

theorem shortens_all {cs : List Elem} {rel full : List String}
    (h : ∀ c ∈ cs, Shortens rel full (walkAt py (dotted rel) c).2 (arraysAt full c) c.iter) :
    Shortens rel full (walkAll py (dotted rel) cs).2 (arraysAll full cs) (Elem.iterAll cs) := by
  induction cs with
  | nil =>
    refine ⟨Nat.le_refl _, fun _ => ⟨fun _ => rfl, fun d hd => ?_⟩⟩
    cases hd
  | cons c cs ih =>
    obtain ⟨h₁, h₂⟩ := h c List.mem_cons_self
    obtain ⟨h₁', h₂'⟩ := ih fun c' hc' => h c' (List.mem_cons_of_mem c hc')
    unfold pathLengths chainLengths at h₁ h₂ h₁' h₂'
    rw [Shortens, walkAll, arraysAll, Elem.iterAll, pathLengths, chainLengths, List.map_append,
      List.map_append, List.sum_append, List.sum_append]
    refine ⟨by omega, fun heq => ?_⟩
    obtain ⟨hnil, hflat⟩ := h₂ (by omega)
    obtain ⟨hnil', hflat'⟩ := h₂' (by omega)
    refine ⟨fun hne => by rw [hnil hne, hnil' hne, List.append_nil], fun d hd => ?_⟩
    rcases List.mem_append.mp hd with hd | hd
    · exact hflat d hd
    · exact hflat' d hd

/-- **No grid has a longer path than its array**, and all have the same only if no array
stands below another. -/
theorem length_walk (el : Elem) {rel full : List String} (hsuffix : rel <:+ full)
    (hfull : Named full) (hnamed : ∀ d ∈ el.iter, d.tag ≠ "") (hleafy : ∀ d ∈ el.iter, Leafy d) :
    Shortens rel full (walkAt py (dotted rel) el).2 (arraysAt full el) el.iter := by
  induction el using Elem.induction generalizing rel full with
  | h tag attrib text children ih =>
    rw [Elem.iter, List.forall_mem_cons] at hnamed hleafy
    have htag : tag ≠ "" := hnamed.1
    have hbelow (rel full : List String) (hsuffix : rel <:+ full) (hfull : Named full) :=
      shortens_all py fun c hc => ih c hc hsuffix hfull
        (fun d hd => hnamed.2 d (Elem.mem_iterAll.mpr ⟨c, hc, hd⟩))
        fun d hd => hleafy.2 d (Elem.mem_iterAll.mpr ⟨c, hc, hd⟩)
    rcases kinds (.mk tag attrib text children) with h | h | h
    · obtain ⟨h₁, h₂⟩ := hbelow [] (full ++ [tag]) List.nil_suffix (hfull.concat htag)
      -- an array: its path is counted, and its rows start anew
      have hstart : dotted [] = "" := rfl
      rw [hstart] at h₁ h₂
      have hown : rel ≠ full →
          (dotted (rel ++ [tag])).length < (dotted (full ++ [tag])).length := fun hne =>
        length_dotted_lt hsuffix hne hfull htag
      have hownLe : (dotted (rel ++ [tag])).length ≤ (dotted (full ++ [tag])).length := by
        by_cases hne : rel = full
        · rw [hne]
        · exact (hown hne).le
      rw [walkAt_array py h, arraysAt_array h, Elem.iter, ← dotted_concat]
      unfold pathLengths chainLengths at h₁ h₂
      simp only [Shortens, pathLengths, chainLengths, List.map_append, List.sum_append,
        List.map_cons, List.map_nil, List.sum_cons, List.sum_nil]
      refine ⟨by omega, fun heq => ?_⟩
      obtain ⟨hnil, -⟩ := h₂ (by omega)
      have hnone : ∀ d ∈ Elem.iterAll children, ¬ IsArray d := by
        have hempty := hnil (by simp)
        rw [arraysAll_eq, List.flatMap_eq_nil_iff] at hempty
        intro d hd
        obtain ⟨c, hc, hd⟩ := Elem.mem_iterAll.mp hd
        exact not_isArray_of_empty c _ (hempty c hc) d hd
      refine ⟨fun hne => ?_, fun d hd => ?_⟩
      · have hlt := hown hne
        omega
      · rcases List.mem_cons.mp hd with rfl | hd
        · exact fun _ => hnone
        · exact fun harray => absurd harray (hnone d hd)
    · obtain ⟨field, -, hwalk, -⟩ := at_typed py h (dotted rel) none [] []
      -- a field: nothing below it is typed
      have huntyped := hleafy.1 h
      have hnone : ∀ d ∈ Elem.iterAll children, ¬ IsArray d := fun d hd =>
        not_isArray_of_none (huntyped d hd)
      rw [hwalk, arraysAt_other (not_isArray_of_typed h), arraysAll_of_no_array _ hnone, Elem.iter]
      refine ⟨Nat.le_refl _, fun _ => ⟨fun _ => rfl, fun d hd => ?_⟩⟩
      rcases List.mem_cons.mp hd with rfl | hd
      · exact fun harray => absurd harray (not_isArray_of_typed h)
      · exact fun harray => absurd harray (hnone d hd)
    · -- a container: both paths grow by its tag
      have hsuffix' : rel ++ [tag] <:+ full ++ [tag] := by
        obtain ⟨p, rfl⟩ := hsuffix
        exact ⟨p, by rw [List.append_assoc]⟩
      obtain ⟨h₁, h₂⟩ := hbelow (rel ++ [tag]) (full ++ [tag]) hsuffix' (hfull.concat htag)
      rw [walkAt_none py h, arraysAt_other (not_isArray_of_none h), Elem.iter, ← dotted_concat]
      refine ⟨h₁, fun heq => ?_⟩
      obtain ⟨hnil, hflat⟩ := h₂ heq
      refine ⟨fun hne => hnil fun heq' => hne (List.append_cancel_right heq'), fun d hd => ?_⟩
      rcases List.mem_cons.mp hd with rfl | hd
      · exact fun harray => absurd harray (not_isArray_of_none h)
      · exact hflat d hd

end Lengths

/-! ### Plain definitions -/

section Regular

variable (py : StrMethods)

theorem nothing_of_untyped (el : Elem) (owner : Option String) (rel full : List String)
    (h : ∀ d ∈ el.iter, d.get "type" = none) :
    placedAt py owner rel full el = [] ∧ scalarsAt full el = [] := by
  induction el using Elem.induction generalizing rel full with
  | h tag attrib text children ih =>
    rw [Elem.iter, List.forall_mem_cons] at h
    rw [placedAt_none py h.1, scalarsAt_none h.1, placedAll_eq, scalarsAll_eq,
      List.flatMap_eq_nil_iff, List.flatMap_eq_nil_iff]
    have hbelow := fun c hc => ih c hc (rel ++ [tag]) (full ++ [tag]) fun d hd =>
      h.2 d (Elem.mem_iterAll.mpr ⟨c, hc, hd⟩)
    exact ⟨fun c hc => (hbelow c hc).1, fun c hc => (hbelow c hc).2⟩

theorem nothing_below_typed {cs : List Elem} (owner : Option String) (rel full : List String)
    (h : ∀ d ∈ Elem.iterAll cs, d.get "type" = none) :
    placedAll py owner rel full cs = [] ∧ scalarsAll full cs = [] := by
  rw [placedAll_eq, scalarsAll_eq, List.flatMap_eq_nil_iff, List.flatMap_eq_nil_iff]
  have heach := fun c hc => nothing_of_untyped py c owner rel full fun d hd =>
    h d (Elem.mem_iterAll.mpr ⟨c, hc, hd⟩)
  exact ⟨fun c hc => (heach c hc).1, fun c hc => (heach c hc).2⟩

theorem walk_fields (el : Elem) (owner : Option String) (rel full : List String)
    (hleafy : ∀ d ∈ el.iter, Leafy d) (hnone : ∀ d ∈ el.iter, ¬ IsArray d) :
    (walkAt py (dotted rel) el).2 = [] ∧
      placedAt py owner rel full el =
        (walkAt py (dotted rel) el).1.map fun f => (owner, f) := by
  induction el using Elem.induction generalizing rel full with
  | h tag attrib text children ih =>
    rw [Elem.iter, List.forall_mem_cons] at hleafy hnone
    rcases kinds (.mk tag attrib text children) with h | h | h
    · exact absurd h hnone.1
    · obtain ⟨field, -, hwalk, hat⟩ := at_typed py h (dotted rel) owner rel full
      have hbelow := nothing_below_typed py owner (rel ++ [tag]) (full ++ [tag]) (hleafy.1 h)
      rw [hwalk, hat, ← dotted_concat]
      exact ⟨rfl, congrArg _ hbelow.1⟩
    · have hbelow := fun c hc => ih c hc (rel ++ [tag]) (full ++ [tag])
        (fun d hd => hleafy.2 d (Elem.mem_iterAll.mpr ⟨c, hc, hd⟩))
        fun d hd => hnone.2 d (Elem.mem_iterAll.mpr ⟨c, hc, hd⟩)
      rw [walkAt_none py h, placedAt_none py h, ← dotted_concat, walkAll_fst, walkAll_snd,
        placedAll_eq, List.flatMap_eq_nil_iff, List.map_flatMap]
      refine ⟨fun c hc => (hbelow c hc).1, List.flatMap_congr fun c hc => (hbelow c hc).2⟩

theorem walkAll_fields (cs : List Elem) (owner : Option String) (rel full : List String)
    (hleafy : ∀ d ∈ Elem.iterAll cs, Leafy d) (hnone : ∀ d ∈ Elem.iterAll cs, ¬ IsArray d) :
    (walkAll py (dotted rel) cs).2 = [] ∧
      placedAll py owner rel full cs =
        (walkAll py (dotted rel) cs).1.map fun f => (owner, f) := by
  have heach := fun c hc => walk_fields py c owner rel full
    (fun d hd => hleafy d (Elem.mem_iterAll.mpr ⟨c, hc, hd⟩))
    fun d hd => hnone d (Elem.mem_iterAll.mpr ⟨c, hc, hd⟩)
  rw [walkAll_fst, walkAll_snd, placedAll_eq, List.flatMap_eq_nil_iff, List.map_flatMap]
  exact ⟨fun c hc => (heach c hc).1, List.flatMap_congr fun c hc => (heach c hc).2⟩

theorem placedIn_append (w w' : List Field × List Grid) :
    (placedIn (w.1 ++ w'.1) (w.2 ++ w'.2)).Perm (placedIn w.1 w.2 ++ placedIn w'.1 w'.2) := by
  simp only [placedIn, List.map_append, List.flatMap_append]
  rw [List.append_assoc, List.append_assoc]
  refine List.Perm.append_left _ ?_
  rw [← List.append_assoc, ← List.append_assoc]
  exact List.Perm.append_right _ List.perm_append_comm

/-- What `walk_plain` says: every typed node where it belongs, every array under its full
path, every scalar under its own. -/
def Faithful (w : List Field × List Grid) (placed : List (Option String × Field))
    (arrays : List Node) (scalars : List (List String)) : Prop :=
  placed.Perm (placedIn w.1 w.2) ∧
    w.2.map (·.path) = arrays.map (fun n => dotted n.chain) ∧
      w.1.map (·.path) = scalars.map dotted

theorem faithful_all {cs : List Elem} {full : List String}
    (h : ∀ c ∈ cs, Faithful (walkAt py (dotted full) c) (placedAt py none full full c)
      (arraysAt full c) (scalarsAt full c)) :
    Faithful (walkAll py (dotted full) cs) (placedAll py none full full cs) (arraysAll full cs)
      (scalarsAll full cs) := by
  induction cs with
  | nil => exact ⟨List.Perm.refl _, rfl, rfl⟩
  | cons c cs ih =>
    obtain ⟨h₁, h₂, h₃⟩ := h c List.mem_cons_self
    obtain ⟨h₁', h₂', h₃'⟩ := ih fun c' hc' => h c' (List.mem_cons_of_mem c hc')
    rw [Faithful, walkAll, placedAll, arraysAll, scalarsAll]
    refine ⟨(h₁.append h₁').trans (placedIn_append _ _).symm, ?_, ?_⟩
    · rw [List.map_append, List.map_append, h₂, h₂']
    · rw [List.map_append, List.map_append, h₃, h₃']

theorem walk_plain (el : Elem) (full : List String) (hleafy : ∀ d ∈ el.iter, Leafy d)
    (hflat : ∀ d ∈ el.iter, Flat d) :
    Faithful (walkAt py (dotted full) el) (placedAt py none full full el) (arraysAt full el)
      (scalarsAt full el) := by
  induction el using Elem.induction generalizing full with
  | h tag attrib text children ih =>
    rw [Elem.iter, List.forall_mem_cons] at hleafy hflat
    rcases kinds (.mk tag attrib text children) with h | h | h
    · have hnone : ∀ d ∈ Elem.iterAll children, ¬ IsArray d := hflat.1 h
      obtain ⟨hgrids, hfields⟩ := walkAll_fields py children (some (dotted (full ++ [tag]))) []
        (full ++ [tag]) hleafy.2 hnone
      have hstart : dotted [] = "" := rfl
      rw [hstart] at hgrids hfields
      rw [walkAt_array py h, placedAt_array py h, arraysAt_array h, scalarsAt_array h,
        arraysAll_of_no_array _ hnone, hgrids, hfields, ← dotted_concat]
      refine ⟨?_, rfl, rfl⟩
      simp [placedIn]
    · obtain ⟨field, hpath, hwalk, hat⟩ := at_typed py h (dotted full) none full full
      have huntyped := hleafy.1 h
      have hbelow := nothing_below_typed py none (full ++ [tag]) (full ++ [tag]) huntyped
      have hnone : ∀ d ∈ Elem.iterAll children, ¬ IsArray d := fun d hd =>
        not_isArray_of_none (huntyped d hd)
      have hscalars : scalarsAll (full ++ [tag]) children = [] := hbelow.2
      have hplaced : placedAll py none (full ++ [tag]) (full ++ [tag]) children = [] := hbelow.1
      rw [hwalk, hat, arraysAt_other (not_isArray_of_typed h), arraysAll_of_no_array _ hnone,
        scalarsAt_typed h, hscalars, hplaced, ← dotted_concat]
      refine ⟨List.Perm.refl _, rfl, ?_⟩
      rw [List.map_singleton, hpath, List.map_singleton]
    · rw [walkAt_none py h, placedAt_none py h, arraysAt_other (not_isArray_of_none h),
        scalarsAt_none h, ← dotted_concat]
      exact faithful_all py fun c hc => ih c hc (full ++ [tag])
        (fun d hd => hleafy.2 d (Elem.mem_iterAll.mpr ⟨c, hc, hd⟩))
        fun d hd => hflat.2 d (Elem.mem_iterAll.mpr ⟨c, hc, hd⟩)

theorem walkAll_plain (cs : List Elem) (hleafy : ∀ d ∈ Elem.iterAll cs, Leafy d)
    (hflat : ∀ d ∈ Elem.iterAll cs, Flat d) :
    Faithful (walkAll py "" cs) (placedAll py none [] [] cs) (arraysAll [] cs)
      (scalarsAll [] cs) :=
  @faithful_all py cs [] fun c hc => walk_plain py c []
    (fun d hd => hleafy d (Elem.mem_iterAll.mpr ⟨c, hc, hd⟩))
    fun d hd => hflat d (Elem.mem_iterAll.mpr ⟨c, hc, hd⟩)

end Regular

end CatalogTool

end Opngms
