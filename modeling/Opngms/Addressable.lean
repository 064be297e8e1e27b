/-
Opngms/Addressable.lean

Which model definitions keep every field addressable.

`extract_grid_rows`, `resolve_endpoints` and `_build_payload` know a grid by its path alone.
The path leads to the `ArrayField` that it was read from exactly if no array stands below
another and no tag on the way has a dot (`KeepsAddressable` and `Plain`).

Main result: **`parseModel_addressable_iff`**.
-/
import Mathlib.Data.List.Flatten
import Opngms.GridAddresses
import Opngms.JoinedLists

namespace Opngms

namespace CatalogTool

open LiveValues

/-! ### Paths and chains -/

theorem splitDots_dotted_iff {chain : List String} (h : Named chain) (hne : chain ≠ []) :
    splitDots (dotted chain) = chain ↔ ∀ tag ∈ chain, '.' ∉ tag.toList := by
  have hjoin : (dotted chain).toList = ['.'].intercalate (chain.map String.toList) := by
    cases chain with
    | nil => exact absurd rfl hne
    | cons tag chain =>
      rw [toList_dotted_cons h, List.map_cons, intercalate_dot, List.map_map]
      rfl
  constructor
  · intro heq tag htag
    rw [← heq, splitDots] at htag
    obtain ⟨part, hpart, rfl⟩ := List.mem_map.mp htag
    rw [String.toList_ofList]
    exact not_mem_of_mem_splitOn hpart
  · intro hdots
    rw [splitDots, hjoin, List.splitOn_intercalate _ (by simpa using hdots) (by simpa using hne),
      List.map_map]
    have hid : String.ofList ∘ String.toList = id := by
      funext s
      exact String.ofList_toList
    rw [hid, List.map_id]

/-- The value of an answer at a chain, as `extract_grid_rows` goes down to it. -/
def descend (root : Json) (chain : List String) : Json :=
  chain.foldl (fun node part =>
    match node with
    | .obj kvs => Dict.getD kvs part (.obj [])
    | _ => .obj []) root

theorem gridNode_eq (root : Json) (path : String) : gridNode root path = descend root (splitDots path) :=
  rfl

theorem descend_cons (kvs : Dict) (k : String) (chain : List String) :
    descend (.obj kvs) (k :: chain) = descend (Dict.getD kvs k (.obj [])) chain :=
  rfl

theorem descend_empty (chain : List String) : descend (.obj []) chain = .obj [] := by
  induction chain with
  | nil => rfl
  | cons k chain ih => exact ih

def leafUnder (chain : List String) : Json := chain.foldr (fun k v => .obj [(k, v)]) (.str "")

theorem descend_leafUnder {l chain : List String} (h : descend (leafUnder l) chain = .str "") :
    chain = l := by
  induction l generalizing chain with
  | nil =>
    cases chain with
    | nil => rfl
    | cons k chain =>
      have hlost : descend (leafUnder []) (k :: chain) = descend (.obj []) chain := rfl
      rw [hlost, descend_empty] at h
      cases h
  | cons a l ih =>
    have hroot : leafUnder (a :: l) = .obj [(a, leafUnder l)] := rfl
    rw [hroot] at h
    cases chain with
    | nil => cases h
    | cons k chain =>
      rw [descend_cons] at h
      by_cases hk : a = k
      · subst hk
        have hget : Dict.getD [(a, leafUnder l)] a (.obj []) = leafUnder l := by
          simp [Dict.getD, Dict.get?]
        rw [hget] at h
        rw [ih h]
      · have hget : Dict.getD [(a, leafUnder l)] k (.obj []) = .obj [] := by
          simp [Dict.getD, Dict.get?, hk]
        rw [hget, descend_empty] at h
        cases h

theorem descend_self (l : List String) : descend (leafUnder l) l = .str "" := by
  induction l with
  | nil => rfl
  | cons a l ih =>
    have hroot : leafUnder (a :: l) = .obj [(a, leafUnder l)] := rfl
    have hget : Dict.getD [(a, leafUnder l)] a (.obj []) = leafUnder l := by
      simp [Dict.getD, Dict.get?]
    rw [hroot, descend_cons, hget, ih]

theorem descend_injective {l l' : List String} (h : ∀ root, descend root l = descend root l') :
    l = l' :=
  descend_leafUnder ((h (leafUnder l')).trans (descend_self l'))

/-! ### Definitions with distinct sibling tags -/

/-- A parsed definition in which the tags of siblings are distinct; no tag is empty. -/
structure ModelXml where
  root : Elem
  distinct : ∀ d ∈ root.iter, (d.children.map Elem.tag).Nodup
  named : ∀ d ∈ root.iter, d.tag ≠ ""

mutual

/-- The chains of the nodes at and below a child of a node. -/
def chainsAt (full : List String) : Elem → List (List String)
  | .mk tag _ _ children => (full ++ [tag]) :: chainsAll (full ++ [tag]) children

/-- `chainsAt` over the children of a node. -/
def chainsAll (full : List String) : List Elem → List (List String)
  | [] => []
  | child :: children => chainsAt full child ++ chainsAll full children

end

section Chains

theorem chainsAll_eq (full : List String) (cs : List Elem) :
    chainsAll full cs = cs.flatMap (chainsAt full) := by
  induction cs with
  | nil => rfl
  | cons c cs ih => rw [chainsAll, List.flatMap_cons, ← ih]

theorem chainsAt_extends (el : Elem) {full c : List String} (h : c ∈ chainsAt full el) :
    full ++ [el.tag] <+: c := by
  induction el using Elem.induction generalizing full with
  | h tag attrib text children ih =>
    rw [chainsAt, List.mem_cons] at h
    rcases h with rfl | h
    · exact List.prefix_rfl
    · rw [chainsAll_eq, List.mem_flatMap] at h
      obtain ⟨child, hchild, hc⟩ := h
      exact (List.prefix_append _ _).trans (ih child hchild hc)

theorem chainsAll_nodup {cs : List Elem} {full : List String} (hcs : (cs.map Elem.tag).Nodup)
    (h : ∀ c ∈ cs, (chainsAt full c).Nodup) : (chainsAll full cs).Nodup := by
  rw [chainsAll_eq, List.nodup_flatMap]
  refine ⟨h, ?_⟩
  rw [List.Nodup, List.pairwise_map] at hcs
  refine hcs.imp ?_
  intro a b hab chain ha hb
  have htags : full ++ [a.tag] = full ++ [b.tag] := by
    have hpre := List.prefix_of_prefix_length_le (chainsAt_extends a ha) (chainsAt_extends b hb)
      (by simp)
    exact hpre.eq_of_length (by simp)
  exact hab (by simpa using htags)

theorem chainsAt_nodup (el : Elem) (full : List String)
    (h : ∀ d ∈ el.iter, (d.children.map Elem.tag).Nodup) : (chainsAt full el).Nodup := by
  induction el using Elem.induction generalizing full with
  | h tag attrib text children ih =>
    rw [Elem.iter, List.forall_mem_cons] at h
    have hbelow : (chainsAll (full ++ [tag]) children).Nodup :=
      chainsAll_nodup h.1 fun c hc => ih c hc _ fun d hd =>
        h.2 d (Elem.mem_iterAll.mpr ⟨c, hc, hd⟩)
    rw [chainsAt, List.nodup_cons]
    refine ⟨?_, hbelow⟩
    intro hmem
    rw [chainsAll_eq, List.mem_flatMap] at hmem
    obtain ⟨c, -, hmem⟩ := hmem
    have hlength := (chainsAt_extends c hmem).length_le
    simp at hlength

theorem arraysAt_sublist (el : Elem) (full : List String) :
    ((arraysAt full el).map (·.chain)).Sublist (chainsAt full el) := by
  induction el using Elem.induction generalizing full with
  | h tag attrib text children ih =>
    have hbelow : ((arraysAll (full ++ [tag]) children).map (·.chain)).Sublist
        (chainsAll (full ++ [tag]) children) := by
      rw [arraysAll_eq, chainsAll_eq, List.map_flatMap]
      exact List.Sublist.flatMap_right _ fun c hc => ih c hc _
    rw [chainsAt]
    by_cases h : IsArray (.mk tag attrib text children)
    · rw [arraysAt_array h, List.map_cons]
      exact hbelow.cons_cons _
    · rw [arraysAt_other h]
      exact hbelow.cons _

theorem scalarsAt_sublist (el : Elem) (full : List String) :
    (scalarsAt full el).Sublist (chainsAt full el) := by
  induction el using Elem.induction generalizing full with
  | h tag attrib text children ih =>
    have hbelow : (scalarsAll (full ++ [tag]) children).Sublist
        (chainsAll (full ++ [tag]) children) := by
      rw [scalarsAll_eq, chainsAll_eq]
      exact List.Sublist.flatMap_right _ fun c hc => ih c hc _
    rw [chainsAt]
    rcases kinds (.mk tag attrib text children) with h | h | h
    · rw [scalarsAt_array h]
      exact List.nil_sublist _
    · rw [scalarsAt_typed h]
      exact hbelow.cons_cons _
    · rw [scalarsAt_none h]
      exact hbelow.cons _

theorem arraysAt_chain (el : Elem) {full : List String} {n : Node} (hfull : Named full)
    (hnamed : ∀ d ∈ el.iter, d.tag ≠ "") (h : n ∈ arraysAt full el) :
    Named n.chain ∧ ∃ p, n.chain = p ++ [n.el.tag] := by
  induction el using Elem.induction generalizing full with
  | h tag attrib text children ih =>
    rw [Elem.iter, List.forall_mem_cons] at hnamed
    have htag : tag ≠ "" := hnamed.1
    have hbelow : n ∈ arraysAll (full ++ [tag]) children →
        Named n.chain ∧ ∃ p, n.chain = p ++ [n.el.tag] := by
      intro hn
      rw [arraysAll_eq, List.mem_flatMap] at hn
      obtain ⟨c, hc, hn⟩ := hn
      exact ih c hc (hfull.concat htag) (fun d hd => hnamed.2 d (Elem.mem_iterAll.mpr ⟨c, hc, hd⟩)) hn
    by_cases harray : IsArray (.mk tag attrib text children)
    · rw [arraysAt_array harray, List.mem_cons] at h
      rcases h with rfl | h
      · exact ⟨hfull.concat htag, full, rfl⟩
      · exact hbelow h
    · rw [arraysAt_other harray] at h
      exact hbelow h

end Chains

/-! ### A definition -/

theorem iter_eq (el : Elem) : el.iter = el :: Elem.iterAll el.children := by
  cases el
  rfl

namespace ModelXml

variable (xml : ModelXml)

/-- The nodes below `items`. -/
def items : List Elem := itemsOf xml.root

/-- The chains of the `ArrayField`s. -/
def arrays : List Node := arraysAll [] xml.items

def scalars : List (List String) := scalarsAll [] xml.items

theorem items_spec : (xml.items.map Elem.tag).Nodup ∧
    ∀ d ∈ Elem.iterAll xml.items, d ∈ xml.root.iter := by
  unfold items itemsOf
  cases h : xml.root.find ["items"] with
  | none =>
    refine ⟨List.nodup_nil, fun d hd => ?_⟩
    cases hd
  | some el =>
    have hel : el ∈ xml.root.children := by
      have hmem := List.mem_of_head? h
      simp only [Elem.findall, List.mem_flatMap, List.mem_singleton] at hmem
      obtain ⟨c, hc, rfl⟩ := hmem
      exact List.mem_of_mem_filter hc
    have hbelow : ∀ d ∈ el.iter, d ∈ xml.root.iter := by
      intro d hd
      rw [iter_eq]
      exact List.mem_cons_of_mem _ (Elem.mem_iterAll.mpr ⟨el, hel, hd⟩)
    have hself : el ∈ el.iter := by
      rw [iter_eq]
      exact List.mem_cons_self
    refine ⟨xml.distinct el (hbelow el hself), fun d hd => hbelow d ?_⟩
    rw [iter_eq]
    exact List.mem_cons_of_mem _ hd

theorem chains_nodup : (chainsAll [] xml.items).Nodup :=
  chainsAll_nodup xml.items_spec.1 fun c hc => chainsAt_nodup c [] fun d hd =>
    xml.distinct d (xml.items_spec.2 d (Elem.mem_iterAll.mpr ⟨c, hc, hd⟩))

theorem arrays_nodup : (xml.arrays.map (·.chain)).Nodup := by
  refine xml.chains_nodup.sublist ?_
  rw [arrays, arraysAll_eq, chainsAll_eq, List.map_flatMap]
  exact List.Sublist.flatMap_right _ fun c _ => arraysAt_sublist c []

theorem scalars_nodup : xml.scalars.Nodup := by
  refine xml.chains_nodup.sublist ?_
  rw [scalars, scalarsAll_eq, chainsAll_eq]
  exact List.Sublist.flatMap_right _ fun c _ => scalarsAt_sublist c []

theorem items_named : ∀ d ∈ Elem.iterAll xml.items, d.tag ≠ "" := fun d hd =>
  xml.named d (xml.items_spec.2 d hd)

theorem array_chain {n : Node} (h : n ∈ xml.arrays) :
    Named n.chain ∧ ∃ p, n.chain = p ++ [n.el.tag] := by
  rw [arrays, arraysAll_eq, List.mem_flatMap] at h
  obtain ⟨c, hc, hn⟩ := h
  refine arraysAt_chain c (fun t ht => ?_) (fun d hd => ?_) hn
  · cases ht
  · exact xml.items_named d (Elem.mem_iterAll.mpr ⟨c, hc, hd⟩)

end ModelXml

/-! ### What addresses a grid -/

/-- The grid with these endpoints, as the application reads it. -/
def gridRow (g : Grid) (endpoints : List (String × String)) : Opngms.Grid :=
  ⟨g.path, endpoints, g.fields.map fun f => ⟨f.path⟩⟩

section Main

variable (py : StrMethods)

/-- The parsed definition, with the endpoints that are given to it, has the grid of the
array `n` under the full path of `n`, and the three consumers find it there:
`extract_grid_rows` the rows of the array, `resolve_endpoints` its endpoints and
`_build_payload` both its endpoints and the name of its rows. -/
structure Addressed (parsed : ParsedModel) (n : Node) : Prop where
  rows : ∀ root, gridNode root (dotted n.chain) = descend root n.chain
  endpoints : ∀ module php,
    (resolveEndpoints py module parsed.grids php).gridEps.lookup (dotted n.chain) =
      some (gridEndpoints py (py.lower module) n.el.tag)
  payload : ∀ module forms php source plugin opp, opp.grid = dotted n.chain →
    let model := appModel py module parsed forms php source plugin
    ∃ g ∈ parsed.grids, g.path = dotted n.chain ∧
      gridPayload model opp = gridPayload
        { model with grids := [gridRow g (gridEndpoints py (py.lower module) n.el.tag)] } opp
  row : lastSegment (dotted n.chain) = n.el.tag

/-- Every typed node that is no array is a field of exactly the grid it stands in, or of the
model; there is one grid for each array, under its full path; no two scalars and no two
grids have one path; and the consumers address each grid by it. -/
structure KeepsAddressable (xml : ModelXml) : Prop where
  placed : (placedAll py none [] [] xml.items).Perm
    (placedIn (parseModel py xml.root).fields (parseModel py xml.root).grids)
  grids : (xml.arrays.map fun n => dotted n.chain).Perm
    ((parseModel py xml.root).grids.map (·.path))
  scalarPaths : ((parseModel py xml.root).fields.map (·.path)).Nodup
  gridPaths : ((parseModel py xml.root).grids.map (·.path)).Nodup
  addressed : ∀ n ∈ xml.arrays, Addressed py (parseModel py xml.root) n

end Main

/-- Nothing typed stands below a typed node, no array below an array, no tag on the way to
an array has a dot, and no two scalars read the same when their tags are joined by dots. -/
structure Plain (xml : ModelXml) : Prop where
  leafy : ∀ d ∈ Elem.iterAll xml.items, Leafy d
  flat : ∀ d ∈ Elem.iterAll xml.items, Flat d
  dotless : ∀ n ∈ xml.arrays, ∀ tag ∈ n.chain, '.' ∉ tag.toList
  scalars : ∀ c ∈ xml.scalars, ∀ c' ∈ xml.scalars, dotted c = dotted c' → c = c'

section Main

variable (py : StrMethods) {xml : ModelXml}

theorem gridPayload_of_mem {model : Opngms.Model} {opp : CatalogGridOpIn} {g : Opngms.Grid}
    (hg : g ∈ model.grids) (hnodup : (model.grids.map Opngms.Grid.path).Nodup)
    (hpath : g.path = opp.grid) :
    gridPayload model opp = gridPayload { model with grids := [g] } opp := by
  have hfind : model.grids.reverse.find? (fun g' => g'.path == opp.grid) = some g := by
    cases hfound : model.grids.reverse.find? fun g' => g'.path == opp.grid with
    | none =>
      have hnone := List.find?_eq_none.mp hfound g (List.mem_reverse.mpr hg)
      simp [hpath] at hnone
    | some g' =>
      have hg' := List.mem_reverse.mp (List.mem_of_find?_eq_some hfound)
      have hpath' : g'.path = opp.grid := by simpa using List.find?_some hfound
      rw [List.inj_on_of_nodup_map hnodup hg' hg (hpath'.trans hpath.symm)]
  have hsingle : [g].reverse.find? (fun g' => g'.path == opp.grid) = some g := by
    simp [hpath]
  simp only [gridPayload, hfind, hsingle]

theorem splitDots_array {n : Node} (hn : n ∈ xml.arrays) :
    splitDots (dotted n.chain) = n.chain ↔ ∀ tag ∈ n.chain, '.' ∉ tag.toList := by
  obtain ⟨hnamed, p, hp⟩ := xml.array_chain hn
  exact splitDots_dotted_iff hnamed (by simp [hp])

theorem arrayPaths_nodup (h : Plain xml) : (xml.arrays.map fun n => dotted n.chain).Nodup := by
  have hchains := xml.arrays_nodup
  rw [List.Nodup, List.pairwise_map] at hchains ⊢
  refine hchains.imp_of_mem ?_
  intro n n' hn hn' hne heq
  apply hne
  rw [← (splitDots_array hn).mpr (h.dotless n hn), heq, (splitDots_array hn').mpr (h.dotless n' hn')]

theorem plain_faithful (h : Plain xml) :
    Faithful (walkAll py "" xml.items) (placedAll py none [] [] xml.items) xml.arrays
      xml.scalars :=
  walkAll_plain py xml.items h.leafy h.flat

theorem addressed_of_plain (h : Plain xml) {n : Node} (hn : n ∈ xml.arrays) :
    Addressed py (parseModel py xml.root) n := by
  have hsplit := (splitDots_array hn).mpr (h.dotless n hn)
  have hlast : lastSegment (dotted n.chain) = n.el.tag := by
    obtain ⟨-, p, hp⟩ := xml.array_chain hn
    rw [lastSegment, hsplit, hp, List.getLastD_concat]
  have hpaths : (parseModel py xml.root).grids.map (·.path) =
      xml.arrays.map fun n => dotted n.chain := (plain_faithful py h).2.1
  have hnodup : ((parseModel py xml.root).grids.map (·.path)).Nodup :=
    hpaths ▸ arrayPaths_nodup h
  have hmem : dotted n.chain ∈ (parseModel py xml.root).grids.map (·.path) := by
    rw [hpaths]
    exact List.mem_map_of_mem hn
  obtain ⟨g, hg, hgpath⟩ := List.mem_map.mp hmem
  have hlookup : ∀ module php,
      (resolveEndpoints py module (parseModel py xml.root).grids php).gridEps.lookup
        (dotted n.chain) = some (gridEndpoints py (py.lower module) n.el.tag) := by
    intro module php
    rw [resolveEndpoints, entriesOf_of_nodup _ _ hnodup]
    refine (mem_iff_lookup ?_).mp (List.mem_map.mpr ⟨g, hg, ?_⟩)
    · rw [List.map_map]
      exact hnodup
    · rw [hgpath, hlast]
  refine ⟨fun root => ?_, hlookup, ?_, hlast⟩
  · rw [gridNode_eq, hsplit]
  · intro module forms php source plugin opp hopp model
    refine ⟨g, hg, hgpath, ?_⟩
    have hrow : gridRow g (gridEndpoints py (py.lower module) n.el.tag) ∈ model.grids := by
      refine List.mem_map.mpr ⟨_, List.mem_map_of_mem hg, ?_⟩
      rw [gridRow, hgpath, hlookup, Option.getD_some]
      simp only [labelFields, List.map_map, Function.comp_def]
    have hgrids : (model.grids.map Opngms.Grid.path).Nodup := by
      have hsame : model.grids.map Opngms.Grid.path =
          (parseModel py xml.root).grids.map (·.path) := by
        simp only [model, appModel, erase, assembleModel, List.map_map, Function.comp_def]
      rw [hsame]
      exact hnodup
    exact gridPayload_of_mem hrow hgrids (hgpath.trans hopp.symm)

/-- **A definition keeps every field addressable exactly if it is plain.** -/
theorem parseModel_addressable_iff (xml : ModelXml) : KeepsAddressable py xml ↔ Plain xml := by
  constructor
  · intro h
    have hwalked : walked (walkAll py "" xml.items) = (placedAll py none [] [] xml.items).length := by
      rw [h.placed.length_eq]
      exact (length_placedIn _).symm
    have hgrids : (walkAll py "" xml.items).2.length = xml.arrays.length := by
      have hlength := h.grids.length_eq
      rw [List.length_map, List.length_map] at hlength
      exact hlength.symm
    have hleafy : ∀ d ∈ Elem.iterAll xml.items, Leafy d :=
      (@counts_all py xml.items "" none [] [] fun c _ =>
        count_walk py c "" none [] []).2.2 hwalked hgrids
    have hlengths : pathLengths (walkAll py "" xml.items).2 = chainLengths xml.arrays := by
      have hsum := (h.grids.map String.length).sum_nat
      rw [List.map_map, List.map_map] at hsum
      exact hsum.symm
    have hflat : ∀ d ∈ Elem.iterAll xml.items, Flat d :=
      ((@shortens_all py xml.items [] [] fun c hc =>
        length_walk py c List.nil_suffix (fun t ht => by cases ht)
          (fun d hd => xml.items_named d (Elem.mem_iterAll.mpr ⟨c, hc, hd⟩))
          fun d hd => hleafy d (Elem.mem_iterAll.mpr ⟨c, hc, hd⟩)).2 hlengths).2
    have hfaithful := walkAll_plain py xml.items hleafy hflat
    refine ⟨hleafy, hflat, fun n hn => ?_, ?_⟩
    · apply (splitDots_array hn).mp
      exact descend_injective (h.addressed n hn).rows
    · have hnodup : (xml.scalars.map dotted).Nodup := by
        rw [ModelXml.scalars, ← hfaithful.2.2]
        exact h.scalarPaths
      intro c hc c' hc' heq
      exact List.inj_on_of_nodup_map hnodup hc hc' heq
  · intro h
    have hfaithful := plain_faithful py h
    refine ⟨hfaithful.1, ?_, ?_, ?_, fun n hn => addressed_of_plain py h hn⟩
    · exact List.Perm.of_eq hfaithful.2.1.symm
    · have hpaths : (parseModel py xml.root).fields.map (·.path) = xml.scalars.map dotted :=
        hfaithful.2.2
      rw [hpaths]
      exact List.Nodup.map_on h.scalars xml.scalars_nodup
    · have hpaths : (parseModel py xml.root).grids.map (·.path) =
          xml.arrays.map fun n => dotted n.chain := hfaithful.2.1
      rw [hpaths]
      exact arrayPaths_nodup h

end Main

/-- The methods of `str` on ASCII. -/
def asciiMethods : StrMethods where
  upper := String.toUpper
  lower := Json.lower

/-- A list of rules, each with a list of tags. -/
def nestedXml : ModelXml where
  root := .mk "model" [] ""
    [.mk "mount" [] "//OPNsense/Filter" [],
      .mk "items" [] ""
        [.mk "rules" [] ""
          [.mk "rule" [("type", "ArrayField")] ""
            [.mk "enabled" [("type", "BooleanField")] "" [],
              .mk "tags" [("type", "ArrayField")] "" [.mk "name" [("type", "TextField")] "" []]]]]]
  distinct := by decide +kernel
  named := by decide +kernel

/-- The tags of a rule are no longer found under the rules. -/
theorem nestedXml_misplaced :
    nestedXml.arrays.map (fun n => dotted n.chain) = ["rules.rule", "rules.rule.tags"] ∧
      (parseModel asciiMethods nestedXml.root).grids.map (·.path) = ["tags", "rules.rule"] ∧
        (KeepsAddressable asciiMethods nestedXml → False) := by
  have harrays : nestedXml.arrays.map (fun n => dotted n.chain) =
      ["rules.rule", "rules.rule.tags"] := by decide +kernel
  have hgrids : (parseModel asciiMethods nestedXml.root).grids.map (·.path) =
      ["tags", "rules.rule"] := by decide +kernel
  refine ⟨harrays, hgrids, fun h => ?_⟩
  have hperm := h.grids
  rw [harrays, hgrids] at hperm
  exact absurd hperm (by decide)

end CatalogTool

end Opngms
